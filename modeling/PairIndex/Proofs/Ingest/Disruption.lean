import PairIndex.Proofs.Ingest.Quiet

/-! Processing while sessions fail. The session of an event is a list of statements (`Session.applyEvent_eq_inTurn`),
and the store may refuse to open it or break it off after any of them. A session that does not go through to its end
leaves nothing (`Turn.transact_session`). So a failure that is not fatal costs one event and no more: what is left is
what processing leaves of the transaction without the events that failed. -/

namespace PairIndex

/-! ## The statements of an event -/

namespace Session

/-- A statement on whose answer nothing depends. -/
def silent {α : Type} (statement : Session α) : Session Bool := do
  let _ ← statement
  return true

/-- Statements one after another; the last one tells. -/
def inTurn (told : Bool) : List (Session Bool) → Session Bool
  | [] => return told
  | statement :: rest => do inTurn (← statement) rest

/-- The statements on the pair of an event. -/
def pairStatements : EventBody → List (Session Bool)
  | .pairCreated token0 token1 pair creator timestamp =>
    [silent (registerPair pair.toText token0.toText token1.toText creator.toText
      (Moment.ofSeconds? timestamp.toInt))]
  | body =>
    match body.pairMove? with
    | some (state, m) =>
      [silent (ensurePair m.pair.toText), applyPairState m.pair.toText m.seqNum.toNat state.amounts]
    | none => []

/-- The statements on the position of an event. -/
def positionStatements : EventBody → List (Session Bool)
  | .positionCreated user pair position _ => [silent (registerPosition position.toText user.toText pair.toText)]
  | body =>
    match body.positionMove? with
    | some move =>
      [silent (ensurePosition move.position.toText move.metadata.pair.toText (move.owner.map (·.toText))),
        applyPositionState move.position.toText move.metadata.seqNum.toNat move.state.amounts move.liquidated]
    | none => []

/-- The statements of an event, in their order. -/
def statements (signature : String) (e : Event) : List (Session Bool) :=
  silent (insertDetail (e.detail signature)) ::
    ((e.body.pairStateRow? signature).toList.map (fun row => silent (insertPairState row)) ++
      (e.body.swapRow? signature).toList.map (fun row => silent (insertSwap row)) ++
      (e.body.pricePointRow? signature).toList.map (fun row => silent (insertPricePoint row)) ++
      (e.body.liquidityRow? signature).toList.map (fun row => silent (insertLiquidity row)) ++
      (e.body.liquidationRow? signature).toList.map (fun row => silent (insertLiquidation row)) ++
      pairStatements e.body ++ positionStatements e.body)

theorem inTurn_append (told : Bool) (front rest : List (Session Bool)) :
    inTurn told (front ++ rest) = inTurn told front >>= fun told => inTurn told rest := by
  induction front generalizing told with
  | nil => exact (pure_bind told fun told => inTurn told rest).symm
  | cons statement front ih =>
    rw [List.cons_append, inTurn, inTurn, bind_assoc]
    exact bind_congr ih

/-- The session of an event is its statements in turn. -/
theorem applyEvent_eq_inTurn (signature : String) (e : Event) :
    applyEvent signature e = inTurn true (statements signature e) := by
  obtain ⟨body, logIndex⟩ := e
  cases body <;>
    simp only [applyEvent, applyBody, statements, inTurn, silent, pairStatements, positionStatements, recordPairState,
      recordSwap, recordLiquidity, movePair, movePosition, EventBody.pairStateRow?, EventBody.swapRow?,
      EventBody.pricePointRow?, EventBody.liquidityRow?, EventBody.liquidityMove?, EventBody.moment?,
      EventBody.timestamp, EventBody.liquidationRow?, EventBody.pairMove?, EventBody.positionMove?, Option.map_some,
      Option.map_none, Option.toList, List.map_cons, List.map_nil, List.nil_append, List.append_nil, List.cons_append,
      bind_assoc, pure_bind, bind_pure]

end Session

/-! ## Sessions that are broken off -/

/-- A failure that breaks off a session after some of its statements. -/
structure Break where
  /-- How many statements were executed before; all of them, if the session fails at its end. -/
  executed : Nat
  failure : Failure

namespace Session

/-- The session of an event, or as much of it as comes before a break. -/
def applyEventUpTo (signature : String) (e : Event) : Option Break → Session Bool
  | none => applyEvent signature e
  | some brk => do
    let _ ← inTurn true ((statements signature e).take brk.executed)
    throw brk.failure

/-- A session that is broken off fails, at the latest where it is broken off. -/
theorem exists_error_of_break (signature : String) (e : Event) (brk : Break) (s : Store) :
    ∃ failure, (applyEventUpTo signature e (some brk)).run s = .error failure ∧
      (failure = brk.failure ∨ failure = columnOverflow ∧ ¬(Commit.event signature e).fits = true) := by
  have hwhole : applyEvent signature e =
      inTurn true ((statements signature e).take brk.executed) >>= fun told =>
        inTurn told ((statements signature e).drop brk.executed) := by
    rw [applyEvent_eq_inTurn, ← inTurn_append, List.take_append_drop]
  rw [applyEventUpTo]
  rcases hfront : (inTurn true ((statements signature e).take brk.executed)).run s with failure | ⟨told, s'⟩
  · -- What fails in the statements before the break fails in the whole session.
    have hrun := run_applyEvent signature e s
    rw [hwhole, StateT.run_bind, hfront] at hrun
    refine ⟨failure, ?_, .inr ?_⟩
    · rw [StateT.run_bind, hfront]
      rfl
    · by_cases hfits : (Commit.event signature e).fits = true
      · rw [if_pos hfits] at hrun
        cases hrun
      · rw [if_neg hfits] at hrun
        cases hrun
        exact ⟨rfl, hfits⟩
  · exact ⟨brk.failure, run_bind_of_ok hfront, .inl rfl⟩

end Session

/-- An event, and what its session meets. -/
structure Turn where
  event : Event
  /-- What the store reports instead of opening the session. -/
  refusal : Option Failure := none
  /-- What breaks off the session once it is open. -/
  break? : Option Break := none

namespace Turn

/-- An event whose session meets no failure. -/
def whole (e : Event) : Turn where
  event := e

/-- Whether the session of an event goes through: it is opened, it is not broken off, and its numbers fit. -/
def succeeds (turn : Turn) : Bool :=
  turn.refusal.isNone && turn.break?.isNone && (Session.fitsColumn turn.event.logIndex &&
    turn.event.body.seqNum?.all fun n => Session.fitsColumn n.toNat)

/-- The failures that the store may report to a session. -/
def failures (turn : Turn) : List Failure :=
  turn.refusal.toList ++ (turn.break?.map (·.failure)).toList

theorem succeeds_iff (turn : Turn) (signature : String) : turn.succeeds = true ↔
    turn.refusal = none ∧ turn.break? = none ∧ (Commit.event signature turn.event).fits = true := by
  rw [succeeds, Bool.and_eq_true, Bool.and_eq_true, Option.isNone_iff_eq_none, Option.isNone_iff_eq_none, and_assoc]
  rfl

/-- The session of an event, up to the break that it meets. -/
def session (signature : String) (turn : Turn) : Session Bool :=
  Session.applyEventUpTo signature turn.event turn.break?

/-- The next session on a database goes through and makes the commit of its event, or it fails and leaves the store as
it was. -/
theorem transact_session (signature : String) (turn : Turn) (s : Store) (later : List (Option Failure)) :
    (turn.succeeds = true ∧
        Database.transact (turn.session signature) { store := s, outlook := turn.refusal :: later } =
          (.ok (turn.event.body.isNewer s),
            { store := (Commit.event signature turn.event).apply s, outlook := later })) ∨
      turn.succeeds = false ∧ ∃ failure,
        Database.transact (turn.session signature) { store := s, outlook := turn.refusal :: later } =
          (.error failure, { store := s, outlook := later }) ∧
        (failure ∈ turn.failures ∨
          failure = Session.columnOverflow ∧ ¬(Commit.event signature turn.event).fits = true) := by
  obtain ⟨e, refusal, brk⟩ := turn
  cases refusal with
  | some failure =>
    refine .inr ⟨rfl, failure, rfl, .inl ?_⟩
    simp [failures]
  | none =>
    cases brk with
    | some brk =>
      obtain ⟨failure, hrun, hcause⟩ := Session.exists_error_of_break signature e brk s
      refine .inr ⟨rfl, failure, ?_, hcause.imp_left fun h => ?_⟩
      · rw [Database.transact, session, hrun]
        rfl
      · simp [failures, h]
    | none =>
      have hrun := Session.run_applyEvent signature e s
      by_cases hfits : (Commit.event signature e).fits = true
      · rw [if_pos hfits] at hrun
        refine .inl ⟨(succeeds_iff _ signature).mpr ⟨rfl, rfl, hfits⟩, ?_⟩
        rw [Database.transact, session, Session.applyEventUpTo, hrun]
        rfl
      · rw [if_neg hfits] at hrun
        refine .inr ⟨?_, _, ?_, .inr ⟨rfl, hfits⟩⟩
        · rw [← Bool.not_eq_true, succeeds_iff _ signature]
          exact fun h => hfits h.2.2
        · rw [Database.transact, session, Session.applyEventUpTo, hrun]
          rfl

end Turn

/-! ## Processing in turn -/

/-- The store with other records of transactions. -/
def Store.withTransactions (s : Store) (transactions : Table TransactionRow.key) : Store :=
  { s with transactions }

@[simp]
theorem Store.withTransactions_withTransactions (s : Store) (transactions others : Table TransactionRow.key) :
    (s.withTransactions transactions).withTransactions others = s.withTransactions others := rfl

theorem Commit.apply_transaction (row : TransactionRow) (s : Store) :
    (Commit.transaction row).apply s = s.withTransactions (s.transactions.insertNew row).1 := rfl

namespace DecodedTransaction

/-- Runs sessions one after another and counts them, as processing does with those of the events. -/
def runSessions : List (Session Bool) → ProcessResult → Attempt Database ProcessResult
  | [], result => return result
  | session :: rest, result => do
    let outcome ← ExceptT.lift (Database.session session).run
    match outcome with
    | .ok true => runSessions rest { result with applied := result.applied + 1 }
    | .ok false => runSessions rest { result with stale := result.stale + 1 }
    | .error failure =>
      if failure.isFatal then throw failure
      else runSessions rest { result with failed := result.failed + 1 }

/-- Processes a transaction whose events meet failures: their sessions run as far as the store lets them. -/
def processInTurn (tx : DecodedTransaction) (turns : List Turn) : Attempt Database ProcessResult := do
  let isNew ← Database.session (Session.insertTransaction tx.row)
  if tx.failed then return tx.begun isNew
  else runSessions (turns.map (·.session tx.signature)) (tx.begun isNew)

/-- What a call answers and leaves that processes a transaction on a store: the session of the row and those of the
events meet failures. -/
def disrupted (tx : DecodedTransaction) (refusal : Option Failure) (turns : List Turn) (s : Store) :
    Except Failure ProcessResult × Database :=
  (tx.processInTurn turns).outcome { store := s, outlook := refusal :: turns.map (·.refusal) }

theorem applyEvents_eq_runSessions (signature : String) (events : List Event) (result : ProcessResult) :
    applyEvents signature events result = runSessions (events.map (Session.applyEvent signature)) result := by
  induction events generalizing result with
  | nil => rfl
  | cons e rest ih =>
    rw [applyEvents, List.map_cons, runSessions]
    refine bind_congr fun outcome => ?_
    rcases outcome with failure | newer
    · exact congrArg (ite _ _) (ih _)
    · cases newer <;> exact ih _

/-- If no session is broken off, this is processing on a store that refuses some sessions. -/
theorem disrupted_eq_process {tx : DecodedTransaction} {turns : List Turn}
    (hevents : tx.events = turns.map (·.event)) (hwhole : ∀ turn ∈ turns, turn.break? = none)
    (refusal : Option Failure) (s : Store) :
    tx.disrupted refusal turns s =
      tx.process.outcome { store := s, outlook := refusal :: turns.map (·.refusal) } := by
  have hsessions : turns.map (·.session tx.signature) = tx.events.map (Session.applyEvent tx.signature) := by
    rw [hevents, List.map_map]
    refine List.map_congr_left fun turn hturn => ?_
    rw [Turn.session, hwhole turn hturn]
    rfl
  simp only [disrupted, processInTurn, process, begun, applyEvents_eq_runSessions, hsessions]

/-- The outcome of sessions is that of the first one, and then that of the others. -/
theorem outcome_runSessions_cons (session : Session Bool) (rest : List (Session Bool)) (result : ProcessResult)
    (d : Database) :
    (runSessions (session :: rest) result).outcome d =
      match Database.transact session d with
      | (.ok newer, d') => (runSessions rest (counted newer result)).outcome d'
      | (.error failure, d') =>
        if failure.isFatal then (.error failure, d')
        else (runSessions rest { result with failed := result.failed + 1 }).outcome d' := by
  have hfirst : (Database.session session).outcome d = Database.transact session d := rfl
  rw [runSessions, Attempt.outcome_bind_of_ok (Attempt.outcome_lift_run _ d), hfirst]
  rcases Database.transact session d with ⟨failure | newer, d'⟩
  · cases hfatal : failure.isFatal <;> simp [hfatal]
  · cases newer <;> rfl

/-- A call whose row is not written leaves the store alone; another one goes on with the sessions of its events. -/
theorem disrupted_eq (tx : DecodedTransaction) (refusal : Option Failure) (turns : List Turn) (s : Store) :
    tx.disrupted refusal turns s =
      match (Commit.transaction tx.row).failure? refusal with
      | none =>
        let d : Database := { store := (Commit.transaction tx.row).apply s, outlook := turns.map (·.refusal) }
        let result := tx.begun (s.transactions.find? tx.row.key).isNone
        if tx.failed then (.ok result, d)
        else (runSessions (turns.map (·.session tx.signature)) result).outcome d
      | some failure => (.error failure, { store := s, outlook := turns.map (·.refusal) }) := by
  have hfault : nextFault (refusal :: turns.map (·.refusal)) = refusal := rfl
  rw [disrupted, processInTurn, Attempt.outcome_bind, Database.outcome_insertTransaction, Database.attempt, hfault]
  cases (Commit.transaction tx.row).failure? refusal with
  | none => cases hfailed : tx.failed <;> rfl
  | some failure => rfl

/-! ## Failures that are not fatal -/

/-- The events whose sessions go through. -/
def succeeding (turns : List Turn) : List Event :=
  (turns.filter (·.succeeds)).map (·.event)

/-- If no failure is fatal, all sessions run, and only the events of those that go through show in the store. -/
theorem outcome_runSessions_of_mild (signature : String) {turns : List Turn}
    (hmild : ∀ turn ∈ turns, ∀ failure ∈ turn.failures, failure.isFatal = false) (result : ProcessResult) (s : Store) :
    ∃ r, (runSessions (turns.map (·.session signature)) result).outcome
          { store := s, outlook := turns.map (·.refusal) } =
        (.ok r, { store := Commit.applyAll ((succeeding turns).map (Commit.event signature)) s, outlook := [] }) ∧
      r.applied + r.stale = result.applied + result.stale + turns.countP (·.succeeds) ∧
      r.failed = result.failed + turns.countP (!·.succeeds) := by
  induction turns generalizing result s with
  | nil => exact ⟨result, rfl, rfl, rfl⟩
  | cons turn rest ih =>
    obtain ⟨hfirst, hrest⟩ := List.forall_mem_cons.mp hmild
    rw [List.map_cons, List.map_cons, outcome_runSessions_cons]
    rcases turn.transact_session signature s (rest.map (·.refusal)) with
      ⟨hsucceeds, hrun⟩ | ⟨hfails, failure, hrun, hcause⟩
    · obtain ⟨r, ho, hsum, hfailed⟩ :=
        ih hrest (counted (turn.event.body.isNewer s) result) ((Commit.event signature turn.event).apply s)
      have hcount : (turn :: rest).countP (·.succeeds) = rest.countP (·.succeeds) + 1 :=
        List.countP_cons_of_pos hsucceeds
      rw [applied_add_stale_counted] at hsum
      rw [failed_counted] at hfailed
      refine ⟨r, ?_, by omega, ?_⟩
      · rw [hrun, succeeding, List.filter_cons_of_pos hsucceeds]
        exact ho
      · rw [hfailed, List.countP_cons_of_neg (by simp [hsucceeds])]
    · obtain ⟨r, ho, hsum, hfailed⟩ := ih hrest { result with failed := result.failed + 1 } s
      have hgoing : failure.isFatal = false := by
        rcases hcause with hmem | ⟨rfl, -⟩
        · exact hfirst failure hmem
        · rfl
      refine ⟨r, ?_, ?_, ?_⟩
      · simp only [hrun, hgoing, Bool.false_eq_true, if_false]
        rw [succeeding, List.filter_cons_of_neg (by simp [hfails])]
        exact ho
      · rw [hsum, List.countP_cons_of_neg (by simp [hfails])]
      · rw [hfailed, List.countP_cons_of_pos (by simp [hfails]), Nat.add_right_comm]
        rfl

/-- The events of a transaction leave the records of transactions alone, and do not depend on them. -/
theorem applyAll_withTransactions (signature : String) (events : List Event) (s : Store)
    (transactions : Table TransactionRow.key) :
    Commit.applyAll (events.map (Commit.event signature)) (s.withTransactions transactions) =
      (Commit.applyAll (events.map (Commit.event signature)) s).withTransactions transactions := by
  induction events generalizing s with
  | nil => rfl
  | cons e rest ih => exact ih ((Commit.event signature e).apply s)

/-- The transaction with those of its events whose sessions go through. -/
def spared (tx : DecodedTransaction) (turns : List Turn) : DecodedTransaction :=
  { tx with events := succeeding turns }

/-- What is left of a transaction once its failing events are left out is stored as a whole. -/
theorem store_process_spared {tx : DecodedTransaction} (hsuccess : tx.failed = false) (turns : List Turn)
    (hslot : Session.fitsColumn tx.slot = true) (s : Store) :
    ((tx.spared turns).process.outcome { store := s }).2.store =
      Commit.applyAll ((succeeding turns).map (Commit.event tx.signature))
        ((Commit.transaction (tx.spared turns).row).apply s) := by
  have hcommits : (tx.spared turns).commits =
      .transaction (tx.spared turns).row :: (succeeding turns).map (Commit.event tx.signature) := by
    rw [commits, spared]
    simp [hsuccess]
  have hfits : ∀ c ∈ (tx.spared turns).commits, c.fits = true := by
    rw [hcommits, List.forall_mem_cons]
    refine ⟨hslot, fun c hc => ?_⟩
    obtain ⟨e, he, rfl⟩ := List.mem_map.mp hc
    obtain ⟨turn, hturn, rfl⟩ := List.mem_map.mp he
    exact ((turn.succeeds_iff tx.signature).mp (List.mem_filter.mp hturn).2).2.2
  rw [store_process, committed_nil hfits, hcommits]
  rfl

/-- If no failure is fatal, all of a transaction is processed whose own record is written. -/
theorem disrupted_of_mild {tx : DecodedTransaction} (hsuccess : tx.failed = false) {turns : List Turn}
    (hmild : ∀ turn ∈ turns, ∀ failure ∈ turn.failures, failure.isFatal = false)
    (hslot : Session.fitsColumn tx.slot = true) (s : Store) :
    ∃ r, tx.disrupted none turns s =
        (.ok r, { store := Commit.applyAll ((succeeding turns).map (Commit.event tx.signature))
                    ((Commit.transaction tx.row).apply s), outlook := [] }) ∧
      r.applied + r.stale = turns.countP (·.succeeds) ∧ r.failed = turns.countP (!·.succeeds) := by
  have hrow : (Commit.transaction tx.row).failure? none = none := if_pos hslot
  obtain ⟨r, ho, hsum, hfailed⟩ := outcome_runSessions_of_mild tx.signature hmild
    (tx.begun (s.transactions.find? tx.row.key).isNone) ((Commit.transaction tx.row).apply s)
  refine ⟨r, ?_, by simpa [begun] using hsum, by simpa [begun] using hfailed⟩
  rw [disrupted_eq, hrow, ← ho]
  simp only [hsuccess, Bool.false_eq_true, if_false]

/-- Events whose sessions fail, at the opening, at any statement or at the end, are as if they were not there, but for
the record of the transaction, which is made from all events, and for the counts: all events are counted, and as failed
just those. Where sessions fail only at the opening, this is processing on a store that refuses them. -/
theorem failed_events_leave_nothing {tx : DecodedTransaction} (hsuccess : tx.failed = false) {turns : List Turn}
    (hevents : tx.events = turns.map (·.event))
    (hmild : ∀ turn ∈ turns, ∀ failure ∈ turn.failures, failure.isFatal = false) (s : Store) :
    (tx.disrupted none turns s).2.store =
        ((tx.spared turns).process.outcome { store := s }).2.store.withTransactions
          (if Session.fitsColumn tx.slot then (s.transactions.insertNew tx.row).1 else s.transactions) ∧
      (Session.fitsColumn tx.slot = true → ∃ r, (tx.disrupted none turns s).1 = .ok r ∧
        r.applied + r.stale + r.failed = tx.events.length ∧ r.failed = turns.countP (!·.succeeds)) ∧
      ((∀ turn ∈ turns, turn.break? = none) →
        tx.disrupted none turns s = tx.process.outcome { store := s, outlook := none :: turns.map (·.refusal) }) := by
  rw [← and_assoc]
  refine ⟨?_, fun hwhole => disrupted_eq_process hevents hwhole none s⟩
  by_cases hslot : Session.fitsColumn tx.slot = true
  · obtain ⟨r, hcall, hsum, hfailed⟩ := disrupted_of_mild hsuccess hmild hslot s
    rw [hcall, if_pos hslot]
    refine ⟨?_, fun _ => ⟨r, rfl, ?_, hfailed⟩⟩
    · rw [store_process_spared hsuccess turns hslot, Commit.apply_transaction, Commit.apply_transaction,
        applyAll_withTransactions, applyAll_withTransactions, Store.withTransactions_withTransactions]
    · have hall : turns.length = turns.countP (·.succeeds) + turns.countP (!·.succeeds) := by
        simpa using turns.length_eq_countP_add_countP (·.succeeds)
      rw [hevents, List.length_map, hall, hsum, hfailed]
  · -- The row of the transaction does not fit, with or without the failing events: nothing is written.
    have hrow : (Commit.transaction tx.row).failure? none = some Session.columnOverflow := if_neg hslot
    have hspared : (Commit.transaction (tx.spared turns).row).failure? none = some Session.columnOverflow :=
      if_neg hslot
    have hfault : nextFault [] = none := rfl
    rw [disrupted_eq, hrow, store_process, committed, hfault, hspared, if_neg hslot]
    exact ⟨rfl, fun h => absurd h hslot⟩

/-- The creation of a pair goes through; a swap is broken off after its third statement, the session of another one is
refused, and the number of a third one does not fit; the last one goes through. -/
def damagedTurns : List Turn :=
  let state : PairState := ⟨100, 90, 50, 0, 0, 0, 0⟩
  [{ event := ⟨.pairCreated (.small 3) (.small 4) (.small 2) (.small 5) 0, 0⟩ },
    { event := ⟨.swap true 10 9 1 state ⟨.small 1, .small 2, 1, 0⟩, 1⟩
      break? := some ⟨3, ⟨.storeIntegrity, "a row breaks a rule"⟩⟩ },
    { event := ⟨.swap true 20 19 1 state ⟨.small 1, .small 2, 2, 0⟩, 2⟩
      refusal := some ⟨.storeOther, "the store is busy"⟩ },
    { event := ⟨.swap true 30 29 1 state ⟨.small 1, .small 2, 9223372036854775808, 0⟩, 3⟩ },
    { event := ⟨.swap true 40 39 1 state ⟨.small 1, .small 2, 3, 0⟩, 4⟩ }]

def damaged : DecodedTransaction :=
  ⟨"damaged", 1, none, damagedTurns.map (·.event), false⟩

/-- The first and the last event are stored, and the other three are counted as failed. -/
theorem failed_events_leave_nothing_damaged :
    (damaged.spared damagedTurns).events.map (·.logIndex) = [0, 4] ∧
      (damaged.disrupted none damagedTurns .empty).2.store =
        ((damaged.spared damagedTurns).process.outcome { store := .empty }).2.store.withTransactions
          (Table.empty.insertNew damaged.row).1 ∧
      ∃ r, (damaged.disrupted none damagedTurns .empty).1 = .ok r ∧ r.applied + r.stale + r.failed = 5 ∧
        r.failed = 3 := by
  have hmild : ∀ turn ∈ damagedTurns, ∀ failure ∈ turn.failures, failure.isFatal = false := by decide
  have hslot : Session.fitsColumn damaged.slot = true := by decide
  have hfailed : damagedTurns.countP (!·.succeeds) = 3 := by decide +kernel
  have hevents : damaged.events = damagedTurns.map (·.event) := rfl
  obtain ⟨hstore, hresult, -⟩ := failed_events_leave_nothing rfl hevents hmild .empty
  rw [if_pos hslot] at hstore
  rw [hfailed] at hresult
  exact ⟨by decide +kernel, hstore, hresult hslot⟩

end DecodedTransaction
end PairIndex
