import PairIndex.Ingest.Transaction
import PairIndex.Proofs.Attempt
import PairIndex.Proofs.Ingest.Commit

/-! What calls of the processor leave in the store. Which sessions of a call go through is told by the transaction
and by the failures that the store reports, not by what the store holds (`DecodedTransaction.committed`). So a call
is a list of commits (`store_process`), a run of calls is one long list of them (`store_runAll`), and every commit
of it fits (`fits_of_mem_trace`). -/

namespace PairIndex

/-! ## Sessions on a database -/

/-- Why a session does not go through: the store reports a failure, or a number fits no column. -/
def Commit.failure? (c : Commit) (fault : Option Failure) : Option Failure :=
  fault.or (if c.fits then none else some Session.columnOverflow)

theorem Commit.fits_of_failure?_eq_none {c : Commit} {fault : Option Failure} (h : c.failure? fault = none) :
    c.fits = true := by
  rw [failure?, Option.or_eq_none_iff] at h
  by_cases hfits : c.fits = true
  · exact hfits
  · simp [hfits] at h

@[simp]
theorem Commit.failure?_none (c : Commit) :
    c.failure? none = if c.fits then none else some Session.columnOverflow := rfl

/-- What the store reports to the next session instead of running it. -/
def nextFault (outlook : List (Option Failure)) : Option Failure :=
  outlook.head?.join

namespace Database

/-- The database after a session that is to make a commit. -/
def attempt (d : Database) (c : Commit) : Database where
  store := if c.failure? (nextFault d.outlook) = none then c.apply d.store else d.store
  outlook := d.outlook.tail

/-- A session that is to make a commit makes it, unless it fails. -/
theorem outcome_session {α : Type} {session : Session α} {c : Commit} {d : Database} {a : α}
    (h : session.run d.store = if c.fits then .ok (a, c.apply d.store) else .error Session.columnOverflow) :
    (Database.session session).outcome d =
      (match c.failure? (nextFault d.outlook) with | none => .ok a | some failure => .error failure, d.attempt c) := by
  change transact session d = _
  unfold transact attempt nextFault Commit.failure?
  cases d.outlook.head?.join with
  | some failure => rfl
  | none =>
    by_cases hfits : c.fits = true <;> simp [h, hfits]

theorem outcome_insertTransaction (row : TransactionRow) (d : Database) :
    (Database.session (Session.insertTransaction row)).outcome d =
      (match (Commit.transaction row).failure? (nextFault d.outlook) with
        | none => .ok (d.store.transactions.find? row.key).isNone
        | some failure => .error failure, d.attempt (.transaction row)) :=
  outcome_session (Session.run_insertTransaction row d.store)

theorem outcome_applyEvent (signature : String) (e : Event) (d : Database) :
    (Database.session (Session.applyEvent signature e)).outcome d =
      (match (Commit.event signature e).failure? (nextFault d.outlook) with
        | none => .ok (e.body.isNewer d.store)
        | some failure => .error failure, d.attempt (.event signature e)) :=
  outcome_session (Session.run_applyEvent signature e d.store)

end Database

/-! ## One call -/

/-- The commits of the events that are still to be applied, under the failures that the store reports: an event that
fails is left out, and a failure that means that the store is out of reach ends the call. -/
def committedEvents (signature : String) : List Event → List (Option Failure) → List Commit
  | [], _ => []
  | e :: rest, outlook =>
    match (Commit.event signature e).failure? (nextFault outlook) with
    | none => .event signature e :: committedEvents signature rest outlook.tail
    | some failure => if failure.isFatal then [] else committedEvents signature rest outlook.tail

namespace DecodedTransaction

/-- The commits of a transaction that is processed under the failures that the store reports. -/
def committed (tx : DecodedTransaction) (outlook : List (Option Failure)) : List Commit :=
  match (Commit.transaction tx.row).failure? (nextFault outlook) with
  | none => .transaction tx.row :: if tx.failed then [] else committedEvents tx.signature tx.events outlook.tail
  | some _ => []

/-- The commits of a transaction of which everything is stored. -/
def commits (tx : DecodedTransaction) : List Commit :=
  .transaction tx.row :: if tx.failed then [] else tx.events.map (Commit.event tx.signature)

theorem mem_commits {tx : DecodedTransaction} {c : Commit} :
    c ∈ tx.commits ↔
      c = .transaction tx.row ∨ tx.failed = false ∧ ∃ e ∈ tx.events, c = .event tx.signature e := by
  rw [commits, List.mem_cons]
  cases tx.failed <;> simp [eq_comm]

/-- What is answered once the row of a transaction is written, if none of its events is applied. -/
def begun (tx : DecodedTransaction) (isNew : Bool) : ProcessResult where
  signature := tx.signature
  type := tx.row.type
  status := tx.status
  isNew

def counted (newer : Bool) (result : ProcessResult) : ProcessResult :=
  if newer then { result with applied := result.applied + 1 } else { result with stale := result.stale + 1 }

theorem failed_counted (newer : Bool) (result : ProcessResult) : (counted newer result).failed = result.failed := by
  cases newer <;> rfl

theorem applied_add_stale_counted (newer : Bool) (result : ProcessResult) :
    (counted newer result).applied + (counted newer result).stale = result.applied + result.stale + 1 := by
  cases newer <;> simp only [counted, Bool.false_eq_true, if_true, if_false] <;> omega

theorem outcome_applyEvents_cons (signature : String) (e : Event) (rest : List Event) (result : ProcessResult)
    (d : Database) :
    (applyEvents signature (e :: rest) result).outcome d =
      match (Commit.event signature e).failure? (nextFault d.outlook) with
      | none =>
        (applyEvents signature rest (counted (e.body.isNewer d.store) result)).outcome (d.attempt (.event signature e))
      | some failure =>
        if failure.isFatal then (.error failure, d.attempt (.event signature e))
        else (applyEvents signature rest { result with failed := result.failed + 1 }).outcome
          (d.attempt (.event signature e)) := by
  rw [applyEvents, Attempt.outcome_bind_of_ok (Attempt.outcome_lift_run _ d), Database.outcome_applyEvent]
  cases (Commit.event signature e).failure? (nextFault d.outlook) with
  | none => cases e.body.isNewer d.store <;> rfl
  | some failure => cases hfatal : failure.isFatal <;> simp [hfatal]

theorem store_applyEvents (signature : String) (events : List Event) (result : ProcessResult) (d : Database) :
    ((applyEvents signature events result).outcome d).2.store =
      Commit.applyAll (committedEvents signature events d.outlook) d.store := by
  induction events generalizing result d with
  | nil => rfl
  | cons e rest ih =>
    rw [outcome_applyEvents_cons, committedEvents]
    cases hf : (Commit.event signature e).failure? (nextFault d.outlook) with
    | none => simp [ih, Database.attempt, hf]
    | some failure => cases hfatal : failure.isFatal <;> simp [ih, hfatal, Database.attempt, hf]

/-- An event that fails is counted, and no count is taken back. -/
theorem committedEvents_of_outcome {signature : String} {events : List Event} {result r : ProcessResult} {d : Database}
    (h : ((applyEvents signature events result).outcome d).1 = .ok r) :
    result.failed ≤ r.failed ∧
      (r.failed = result.failed →
        committedEvents signature events d.outlook = events.map (Commit.event signature)) := by
  induction events generalizing result d with
  | nil =>
    cases h
    exact ⟨Nat.le_refl _, fun _ => rfl⟩
  | cons e rest ih =>
    rw [outcome_applyEvents_cons] at h
    rw [committedEvents]
    cases hf : (Commit.event signature e).failure? (nextFault d.outlook) with
    | none =>
      simp only [hf] at h
      obtain ⟨hle, heq⟩ := ih h
      rw [failed_counted] at hle heq
      refine ⟨hle, fun hr => ?_⟩
      rw [List.map_cons]
      exact congrArg _ (heq hr)
    | some failure =>
      simp only [hf] at h
      cases hfatal : failure.isFatal with
      | true => simp [hfatal] at h
      | false =>
        simp only [hfatal, Bool.false_eq_true, if_false] at h
        have hle := (ih h).1
        simp only at hle
        exact ⟨by omega, fun hr => by omega⟩

theorem outcome_process (tx : DecodedTransaction) (d : Database) :
    tx.process.outcome d =
      let d' := d.attempt (.transaction tx.row)
      match (Commit.transaction tx.row).failure? (nextFault d.outlook) with
      | none =>
        let result := tx.begun (d.store.transactions.find? tx.row.key).isNone
        if tx.failed then (.ok result, d') else (applyEvents tx.signature tx.events result).outcome d'
      | some failure => (.error failure, d') := by
  rw [process, Attempt.outcome_bind, Database.outcome_insertTransaction]
  cases (Commit.transaction tx.row).failure? (nextFault d.outlook) with
  | none => cases hfailed : tx.failed <;> simp [begun]
  | some failure => rfl

/-- Processing a transaction leaves its commits in the store. -/
theorem store_process (tx : DecodedTransaction) (d : Database) :
    (tx.process.outcome d).2.store = Commit.applyAll (tx.committed d.outlook) d.store := by
  rw [outcome_process, committed]
  cases hf : (Commit.transaction tx.row).failure? (nextFault d.outlook) with
  | none => cases hfailed : tx.failed <;> simp [store_applyEvents, Database.attempt, hf]
  | some failure => simp [Database.attempt, hf]

/-- A transaction of which no event was counted as failed is stored as a whole. -/
theorem committed_of_outcome {tx : DecodedTransaction} {d : Database} {r : ProcessResult}
    (h : (tx.process.outcome d).1 = .ok r) (hok : r.isOk = true) : tx.committed d.outlook = tx.commits := by
  rw [outcome_process] at h
  rw [committed, commits]
  cases hf : (Commit.transaction tx.row).failure? (nextFault d.outlook) with
  | none =>
    simp only [hf] at h
    cases hfailed : tx.failed with
    | true => simp
    | false =>
      simp only [hfailed, Bool.false_eq_true, if_false] at h
      have hall := (committedEvents_of_outcome h).2 (by simpa [ProcessResult.isOk, begun] using hok)
      simpa [Database.attempt] using hall
  | some failure => simp [hf] at h

theorem mem_committedEvents {signature : String} {events : List Event} {outlook : List (Option Failure)} {c : Commit}
    (h : c ∈ committedEvents signature events outlook) :
    c ∈ events.map (Commit.event signature) ∧ c.fits = true := by
  induction events generalizing outlook with
  | nil => cases h
  | cons e rest ih =>
    rw [committedEvents] at h
    rw [List.map_cons, List.mem_cons]
    cases hf : (Commit.event signature e).failure? (nextFault outlook) with
    | none =>
      rw [hf] at h
      rcases List.mem_cons.mp h with rfl | hrest
      · exact ⟨Or.inl rfl, Commit.fits_of_failure?_eq_none hf⟩
      · exact ⟨Or.inr (ih hrest).1, (ih hrest).2⟩
    | some failure =>
      rw [hf] at h
      cases hfatal : failure.isFatal with
      | true => simp [hfatal] at h
      | false =>
        simp only [hfatal, Bool.false_eq_true, if_false] at h
        exact ⟨Or.inr (ih h).1, (ih h).2⟩

/-- Only what the transaction tells is stored, and only what fits. -/
theorem mem_committed {tx : DecodedTransaction} {outlook : List (Option Failure)} {c : Commit}
    (h : c ∈ tx.committed outlook) : c ∈ tx.commits ∧ c.fits = true := by
  rw [committed] at h
  rw [commits]
  cases hf : (Commit.transaction tx.row).failure? (nextFault outlook) with
  | none =>
    rw [hf] at h
    rcases List.mem_cons.mp h with rfl | hevents
    · exact ⟨List.mem_cons_self, Commit.fits_of_failure?_eq_none hf⟩
    · cases hfailed : tx.failed with
      | true => simp [hfailed] at hevents
      | false =>
        simp only [hfailed, Bool.false_eq_true, if_false] at hevents ⊢
        exact ⟨List.mem_cons_of_mem _ (mem_committedEvents hevents).1, (mem_committedEvents hevents).2⟩
  | some failure => simp [hf] at h

end DecodedTransaction

/-! ## Block times -/

/-- A block time is in the calendar, or it cannot be read, and not for the time being only. -/
theorem blockMoment_cases (blockTime : Option Int) :
    (∃ moment, blockTime.mapM Moment.ofSeconds? = some moment ∧
        (blockMoment blockTime : Except Failure (Option Moment)) = .ok moment) ∨
      (blockTime.mapM Moment.ofSeconds? = none ∧ ∃ failure : Failure, failure.isTransient = false ∧
        (blockMoment blockTime : Except Failure (Option Moment)) = .error failure) := by
  cases blockTime with
  | none => exact Or.inl ⟨none, rfl, rfl⟩
  | some seconds =>
    simp only [blockMoment, Option.mapM_some, Moment.ofSeconds?]
    cases Moment.ofSeconds seconds with
    | ok moment => exact Or.inl ⟨some moment, rfl, rfl⟩
    | error e => exact Or.inr ⟨rfl, e.failure, by cases e <;> rfl, rfl⟩

theorem LedgerTransaction.decode_cases (tx : LedgerTransaction) (source : String) :
    (∃ moment, tx.blockTime.mapM Moment.ofSeconds? = some moment ∧ tx.decode source = .ok (tx.decoded source moment)) ∨
      (tx.blockTime.mapM Moment.ofSeconds? = none ∧ ∃ failure : Failure, failure.isTransient = false ∧
        tx.decode source = .error failure) := by
  rw [decode]
  rcases blockMoment_cases tx.blockTime with ⟨moment, hmoment, hread⟩ | ⟨hmoment, failure, hlasting, hread⟩
  · exact Or.inl ⟨moment, hmoment, by rw [hread]; rfl⟩
  · exact Or.inr ⟨hmoment, failure, hlasting, by rw [hread]; rfl⟩

theorem SignatureInfo.decode_cases (info : SignatureInfo) :
    (∃ moment, info.blockTime.mapM Moment.ofSeconds? = some moment ∧ info.decode = .ok (info.decoded moment)) ∨
      (info.blockTime.mapM Moment.ofSeconds? = none ∧ ∃ failure : Failure, failure.isTransient = false ∧
        info.decode = .error failure) := by
  rw [decode]
  rcases blockMoment_cases info.blockTime with ⟨moment, hmoment, hread⟩ | ⟨hmoment, failure, hlasting, hread⟩
  · exact Or.inl ⟨moment, hmoment, by rw [hread]; rfl⟩
  · exact Or.inr ⟨hmoment, failure, hlasting, by rw [hread]; rfl⟩

/-- A transaction is processed as it was read, or not at all. -/
theorem outcome_processTransaction (tx : LedgerTransaction) (source : String) (d : Database) :
    (processTransaction tx source).outcome d =
      match tx.decode source with
      | .ok decoded => decoded.process.outcome d
      | .error failure => (.error failure, d) := by
  rw [processTransaction, Attempt.outcome_bind, Attempt.outcome_ofExcept]
  cases tx.decode source <;> rfl

/-! ## Runs of calls -/

/-- A call of the processor: with a transaction whose log was read, or with one as the ledger gave it. -/
inductive Call where
  | decoded (tx : DecodedTransaction)
  | fetched (tx : LedgerTransaction) (source : String)

namespace Call

def attempt : Call → Attempt Database ProcessResult
  | .decoded tx => tx.process
  | .fetched tx source => processTransaction tx source

/-- The transaction of a call, if the calendar has its block time. -/
def transaction? : Call → Option DecodedTransaction
  | .decoded tx => some tx
  | .fetched tx source =>
    (tx.blockTime.mapM Moment.ofSeconds?).map (tx.decoded source)

/-- The commits of a call under the failures that the store reports. -/
def committed (call : Call) (outlook : List (Option Failure)) : List Commit :=
  match call.transaction? with
  | some tx => tx.committed outlook
  | none => []

/-- The store after calls one after another, each under failures of its own. -/
def runAll : List (Call × List (Option Failure)) → Store → Store
  | [], s => s
  | (call, outlook) :: rest, s => runAll rest (call.attempt.outcome { store := s, outlook }).2.store

/-- The commits of a run, in the order in which they were made. -/
def trace (run : List (Call × List (Option Failure))) : List Commit :=
  run.flatMap fun (call, outlook) => call.committed outlook

theorem store_attempt (call : Call) (d : Database) :
    (call.attempt.outcome d).2.store = Commit.applyAll (call.committed d.outlook) d.store := by
  cases call with
  | decoded tx => exact tx.store_process d
  | fetched tx source =>
    rw [attempt, outcome_processTransaction, committed, transaction?]
    rcases tx.decode_cases source with ⟨moment, hm, hread⟩ | ⟨hm, failure, -, hread⟩
    · rw [hread, hm]
      exact DecodedTransaction.store_process _ d
    · rw [hread, hm]
      rfl

/-- A run of calls is the list of its commits. -/
theorem store_runAll (run : List (Call × List (Option Failure))) (s : Store) :
    runAll run s = Commit.applyAll (trace run) s := by
  induction run generalizing s with
  | nil => rfl
  | cons first rest ih =>
    obtain ⟨call, outlook⟩ := first
    rw [runAll, ih, store_attempt, trace, trace, List.flatMap_cons, Commit.applyAll_append]

theorem runAll_append (before after : List (Call × List (Option Failure))) (s : Store) :
    runAll (before ++ after) s = runAll after (runAll before s) := by
  induction before generalizing s with
  | nil => rfl
  | cons first rest ih => exact ih _

/-- Calls while the store reports no failure. -/
def undisturbed (calls : List Call) : List (Call × List (Option Failure)) :=
  calls.map fun call => (call, [])

theorem fits_of_mem_trace {run : List (Call × List (Option Failure))} {c : Commit} (h : c ∈ trace run) :
    c.fits = true := by
  obtain ⟨⟨call, outlook⟩, -, hc⟩ := List.mem_flatMap.mp h
  simp only [committed] at hc
  cases htx : call.transaction? with
  | none => simp [htx] at hc
  | some tx =>
    rw [htx] at hc
    exact (DecodedTransaction.mem_committed hc).2

/-! ### Where commits come from -/

/-- The transactions that calls of a run are about. -/
def transactionsOf (run : List (Call × List (Option Failure))) : List DecodedTransaction :=
  run.filterMap (·.1.transaction?)

variable {run : List (Call × List (Option Failure))}

theorem exists_committed_of_mem_trace {c : Commit} (h : c ∈ trace run) :
    ∃ tx ∈ transactionsOf run, ∃ outlook, c ∈ tx.committed outlook ∧ ∀ d ∈ tx.committed outlook, d ∈ trace run := by
  obtain ⟨⟨call, outlook⟩, hcall, hc⟩ := List.mem_flatMap.mp h
  cases htx : call.transaction? with
  | none => simp [committed, htx] at hc
  | some tx =>
    simp only [committed, htx] at hc
    refine ⟨tx, List.mem_filterMap.mpr ⟨_, hcall, htx⟩, outlook, hc, fun d hd => ?_⟩
    refine List.mem_flatMap.mpr ⟨_, hcall, ?_⟩
    simpa only [committed, htx] using hd

/-- A transaction is recorded as it was processed. -/
theorem exists_transaction_of_mem_trace {row : TransactionRow} (h : .transaction row ∈ trace run) :
    ∃ tx ∈ transactionsOf run, row = tx.row := by
  obtain ⟨tx, htx, outlook, hc, -⟩ := exists_committed_of_mem_trace h
  rcases DecodedTransaction.mem_commits.mp (DecodedTransaction.mem_committed hc).1 with heq | ⟨-, e, -, heq⟩
  · cases heq
    exact ⟨tx, htx, rfl⟩
  · cases heq

/-- An event is applied only if its transaction did not fail, and after the transaction was recorded. -/
theorem exists_transaction_of_event {signature : String} {e : Event} (h : .event signature e ∈ trace run) :
    ∃ tx ∈ transactionsOf run, tx.failed = false ∧ tx.signature = signature ∧ e ∈ tx.events ∧
      .transaction tx.row ∈ trace run := by
  obtain ⟨tx, htx, outlook, hc, hall⟩ := exists_committed_of_mem_trace h
  have hrecorded : .transaction tx.row ∈ tx.committed outlook := by
    rw [DecodedTransaction.committed] at hc ⊢
    cases hfailure : (Commit.transaction tx.row).failure? (nextFault outlook) with
    | none => exact List.mem_cons_self
    | some failure => simp [hfailure] at hc
  rcases DecodedTransaction.mem_commits.mp (DecodedTransaction.mem_committed hc).1 with heq | ⟨hfailed, e', he', heq⟩
  · cases heq
  · cases heq
    exact ⟨tx, htx, hfailed, rfl, he', hall _ hrecorded⟩

end Call

/-- A key that ends in the given byte, after zeros. -/
def PublicKey.small (last : UInt8) : PublicKey :=
  ⟨List.replicate 31 (UInt8.ofNat 0) ++ [last], rfl⟩

end PairIndex
