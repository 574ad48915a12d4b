import PairIndex.Crawl.Ingest
import PairIndex.Proofs.Crawl.Walk
import PairIndex.Proofs.Ingest.Interleaving

/-! Turns of ingestions that go on at the same time. Whatever turns the ingestions of a chunk take, each is carried on step
by step until it settles (`Crawler.turn_induction`, `Crawler.mapM_finish_induction`), so what every step keeps holds of
the chunk (`Crawler.ingestChunk_induction`). -/

namespace PairIndex

/-! ## Single steps -/

/-- A later world with the same database and ledger, in which no page was asked for, and which was not stopped meanwhile
unless a fetch stops a crawl. -/
structure World.Idles (w w' : World) : Prop extends w.Alike w' where
  pageCalls : w'.pageCalls = w.pageCalls
  goingOn : w.ledger.switches.stopOnFetch = none → w'.stopped = w.stopped

theorem World.Idles.refl (w : World) : w.Idles w :=
  ⟨.refl w, rfl, fun _ => rfl⟩

/-- An attempt on the database changes nothing else of a world. -/
theorem World.outcome_onDatabase_of_eq {w : World} {α : Type} {x : Attempt Database α} {result : Except Failure α}
    {db : Database} (h : x.outcome w.database = (result, db)) :
    (World.onDatabase x).outcome w = (result, { w with database := db }) := by
  change ((x.outcome w.database).1, { w with database := (x.outcome w.database).2 }) = _
  rw [h]

/-- A fetch leaves the store and the ledger alone, and gives what the ledger gives. -/
theorem World.outcome_fetch_eq (signature : String) (w : World) :
    ∃ w', w.Idles w' ∧ (World.fetch signature).outcome w =
      (match w.ledger.fetchFailure? signature with
        | some failure => .error failure
        | none => .ok (w.ledger.transaction? signature), w') := by
  simp only [World.fetch, Attempt.outcome_bind, Attempt.outcome_modify, Attempt.outcome_get]
  cases w.ledger.fetchFailure? signature with
  | some failure =>
    refine ⟨_, ⟨?_, ?_, fun _ => ?_⟩, rfl⟩
    · exact ⟨rfl, rfl⟩
    · rfl
    · rfl
  | none =>
    by_cases hstop : w.ledger.switches.stopOnFetch = some signature
    · simp only [if_pos hstop]
      refine ⟨_, ⟨?_, ?_, fun hnone => ?_⟩, rfl⟩
      · exact ⟨rfl, rfl⟩
      · rfl
      · cases hnone.symm.trans hstop
    · simp only [if_neg hstop]
      refine ⟨_, ⟨?_, ?_, fun _ => ?_⟩, rfl⟩
      · exact ⟨rfl, rfl⟩
      · rfl
      · rfl

/-- What a crawl of an address makes of a signature that it looks up. -/
def RecordedLedger.prepared (l : RecordedLedger) (address : String) (info : SignatureInfo) :
    Except Failure (Option DecodedTransaction) :=
  if info.isFailed then info.decode.map some
  else
    match l.fetchFailure? info.signature with
    | some failure => .error failure
    | none =>
      match l.transaction? info.signature with
      | none => .ok none
      | some tx => (tx.decode address).map some

/-- What an ingestion comes to that was looked up and processed: a transient failure is no success. -/
def Ingestion.tolerated : Except Failure Bool → Except Failure Bool
  | .ok ok => .ok ok
  | .error failure => if failure.isTransient then .ok false else .error failure

theorem Ingestion.tolerated_eq_ok_true {outcome : Except Failure Bool} (h : tolerated outcome = .ok true) :
    outcome = .ok true := by
  cases outcome with
  | ok ok => exact h
  | error failure =>
    rw [tolerated] at h
    split at h <;> cases h

namespace Crawler

theorem outcome_prepare (c : Crawler) (info : SignatureInfo) (w : World) :
    ∃ w', w.Idles w' ∧ (c.prepare info).outcome w = (w.ledger.prepared c.address info, w') := by
  rw [prepare, RecordedLedger.prepared]
  by_cases hfailed : info.isFailed = true
  · simp only [if_pos hfailed]
    refine ⟨w, .refl w, ?_⟩
    rw [Attempt.outcome_bind, Attempt.outcome_ofExcept]
    cases info.decode <;> rfl
  · simp only [if_neg hfailed]
    obtain ⟨w', hidles, ho⟩ := World.outcome_fetch_eq info.signature w
    refine ⟨w', hidles, ?_⟩
    rw [Attempt.outcome_bind, ho]
    cases w.ledger.fetchFailure? info.signature with
    | some failure => rfl
    | none =>
      cases w.ledger.transaction? info.signature with
      | none => rfl
      | some tx =>
        simp only [Attempt.outcome_bind, Attempt.outcome_ofExcept]
        cases tx.decode c.address <;> rfl

theorem outcome_conclude (c : Crawler) (outcome : Except Failure Bool) (w : World) :
    ∃ w', w.Idles w' ∧ (c.conclude outcome).outcome w = (Ingestion.tolerated outcome, w') := by
  unfold conclude
  by_cases hdelay : c.requestDelay ≠ 0
  · refine ⟨{ w with calls := { w.calls with sleeps := w.calls.sleeps ++ [c.requestDelay] } },
      ⟨⟨rfl, rfl⟩, rfl, fun _ => rfl⟩, ?_⟩
    simp only [if_pos hdelay]
    cases outcome with
    | ok ok => rfl
    | error failure => cases hf : failure.isTransient <;> simp [hf, Ingestion.tolerated] <;> rfl
  · refine ⟨w, .refl w, ?_⟩
    simp only [if_neg hdelay]
    cases outcome with
    | ok ok => rfl
    | error failure => cases hf : failure.isTransient <;> simp [hf, Ingestion.tolerated]

theorem advance_waiting (c : Crawler) (info : SignatureInfo) (w : World) :
    ∃ w', w.Idles w' ∧ c.advance (.waiting info) w = (.ofPrepared (w.ledger.prepared c.address info), w') := by
  obtain ⟨w', hidles, ho⟩ := c.outcome_prepare info w
  exact ⟨w', hidles, by simp only [advance, ho]⟩

theorem advance_leaving (c : Crawler) (outcome : Except Failure Bool) (w : World) :
    ∃ w', w.Idles w' ∧ c.advance (.leaving outcome) w = (.settled (Ingestion.tolerated outcome), w') := by
  obtain ⟨w', hidles, ho⟩ := c.outcome_conclude outcome w
  exact ⟨w', hidles, by simp only [advance, ho]⟩

theorem outcome_finish_processing (c : Crawler) (call : Progress) (w : World) :
    (c.finish (.processing call)).outcome w =
      (c.conclude ((call.finish.outcome w.database).1.map (·.isOk))).outcome
        { w with database := (call.finish.outcome w.database).2 } := by
  rw [finish, Attempt.outcome_bind_of_ok (Attempt.outcome_settle _ w), Attempt.outcome_bind]
  rcases ho : call.finish.outcome w.database with ⟨failure | r, db⟩ <;> rw [World.outcome_onDatabase_of_eq ho] <;> rfl

theorem outcome_finish_ofCall (c : Crawler) (call : Progress) (w : World) :
    (c.finish (.ofCall call)).outcome w = (c.finish (.processing call)).outcome w := by
  cases call with
  | ended outcome =>
    rw [outcome_finish_processing, Progress.finish, Attempt.outcome_ofExcept]
    rfl
  | recording tx => rfl
  | applying signature rest result => rfl

/-- An ingestion that is carried to its end comes to what it comes to after one more turn. -/
theorem outcome_finish_advance (c : Crawler) (task : Ingestion) (w : World) :
    (c.finish task).outcome w = (c.finish (c.advance task w).1).outcome (c.advance task w).2 := by
  cases task with
  | waiting info =>
    obtain ⟨w', -, ho⟩ := c.outcome_prepare info w
    simp only [finish, ingest, ingestOnce, advance, ho]
    rw [Attempt.outcome_bind_of_ok (Attempt.outcome_settle _ w), Attempt.outcome_bind, ho]
    rcases w.ledger.prepared c.address info with failure | _ | tx
    · rfl
    · rfl
    · simp only [Ingestion.ofPrepared, Progress.finish]
      rw [Attempt.outcome_bind_of_ok (Attempt.outcome_settle _ w')]
  | processing call =>
    rw [advance, outcome_finish_ofCall, outcome_finish_processing, outcome_finish_processing,
      call.outcome_finish w.database]
  | leaving outcome =>
    obtain ⟨w', -, ho⟩ := c.outcome_conclude outcome w
    simp only [finish, advance, ho, Attempt.outcome_ofExcept]
  | settled outcome => rfl

/-! ## Whole chunks -/

section Induction

variable {c : Crawler} {P : Ingestion → World → Prop}

/-- Carrying an ingestion to its end keeps what holds of it. -/
def Carries (c : Crawler) (P : Ingestion → World → Prop) (task : Ingestion) : Prop :=
  ∀ w, P task w → P (.settled ((c.finish task).outcome w).1) ((c.finish task).outcome w).2

theorem Carries.of_advance {task : Ingestion} (hstep : ∀ w, P task w → P (c.advance task w).1 (c.advance task w).2)
    (h : ∀ w, c.Carries P (c.advance task w).1) : c.Carries P task := by
  intro w hP
  rw [outcome_finish_advance]
  exact h w _ (hstep w hP)

theorem carries_settled (outcome : Except Failure Bool) : c.Carries P (.settled outcome) := by
  intro w h
  rwa [finish, Attempt.outcome_ofExcept]

/-- What every step keeps, an ingestion keeps to its end. -/
theorem carries (hstep : ∀ task w, P task w → P (c.advance task w).1 (c.advance task w).2) (task : Ingestion) :
    c.Carries P task := by
  have hleaving : ∀ outcome, c.Carries P (.leaving outcome) := by
    refine fun outcome => .of_advance (hstep _) fun w => ?_
    obtain ⟨w', -, ho⟩ := c.advance_leaving outcome w
    rw [ho]
    exact carries_settled _
  -- Every session of a call leaves fewer of them to come.
  have hcall : ∀ n (call : Progress), call.remaining ≤ n → c.Carries P (.ofCall call) := by
    intro n
    induction n with
    | zero =>
      intro call hn
      cases call with
      | ended outcome => exact hleaving _
      | recording | applying => cases hn
    | succ n ih =>
      intro call hn
      have hnext : ∀ w : World, c.Carries P (.ofCall (call.step w.database).1) := fun w =>
        ih _ (Nat.le_trans (call.remaining_step w.database) (Nat.sub_le_of_le_add hn))
      cases call with
      | ended outcome => exact hleaving _
      | recording | applying => exact .of_advance (hstep _) hnext
  have hprocessing : ∀ call, c.Carries P (.processing call) := fun call =>
    .of_advance (hstep _) fun w => hcall _ _ (Nat.le_refl _)
  cases task with
  | waiting info =>
    refine .of_advance (hstep _) fun w => ?_
    obtain ⟨w', -, ho⟩ := c.advance_waiting info w
    rw [ho]
    rcases w.ledger.prepared c.address info with failure | _ | tx
    · exact hleaving _
    · exact hleaving _
    · exact hprocessing _
  | processing call => exact hprocessing call
  | leaving outcome => exact hleaving outcome
  | settled outcome => exact carries_settled outcome

/-- Whether an ingestion may go on that stands between others: it is its turn, or all before it have settled. -/
def MayAdvance (c : Crawler) (before : List Ingestion) (task : Ingestion) (after : List Ingestion) : Prop :=
  c.mayTurn (before ++ task :: after) before.length = true ∨ ∀ earlier ∈ before, ∃ outcome, earlier = .settled outcome

variable {Q : List Ingestion → World → Prop}

theorem turn_induction (hstep : ∀ before task after w, c.MayAdvance before task after → Q (before ++ task :: after) w →
      Q (before ++ (c.advance task w).1 :: after) (c.advance task w).2)
    {tasks : List Ingestion} {w : World} (h : Q tasks w) (place : Nat) :
    Q (c.turn tasks w place).1 (c.turn tasks w place).2 := by
  rw [turn]
  cases htask : tasks[place]? with
  | none => exact h
  | some task =>
    by_cases hmay : c.mayTurn tasks place = true
    · simp only [if_pos hmay]
      obtain ⟨hlt, hget⟩ := List.getElem?_eq_some_iff.mp htask
      have htasks : tasks = tasks.take place ++ task :: tasks.drop (place + 1) := by
        rw [← hget, List.getElem_cons_drop, List.take_append_drop]
      have hplace : (tasks.take place).length = place := List.length_take_of_le (Nat.le_of_lt hlt)
      rw [List.set_eq_take_append_cons_drop, if_pos hlt]
      refine hstep _ _ _ w (.inl ?_) (htasks ▸ h)
      rwa [← htasks, hplace]
    · simp only [if_neg hmay]
      exact h

theorem mapM_finish_induction (hstep : ∀ before task after w, c.MayAdvance before task after →
      Q (before ++ task :: after) w → Q (before ++ (c.advance task w).1 :: after) (c.advance task w).2)
    (done : List (Except Failure Bool)) {tasks : List Ingestion} {w : World} (h : Q (done.map .settled ++ tasks) w) :
    ∃ outcomes w', Attempt.outcome (tasks.mapM fun task => (c.finish task).settle) w = (.ok outcomes, w') ∧
      Q ((done ++ outcomes).map .settled) w' := by
  induction tasks generalizing done w with
  | nil => exact ⟨[], w, rfl, by simpa using h⟩
  | cons task tasks ih =>
    have hsettled : ∀ earlier ∈ done.map Ingestion.settled, ∃ outcome, earlier = .settled outcome := by
      intro earlier hearlier
      obtain ⟨outcome, -, rfl⟩ := List.mem_map.mp hearlier
      exact ⟨outcome, rfl⟩
    have hfinished := carries (c := c) (P := fun task w => Q (done.map .settled ++ task :: tasks) w)
      (fun task w => hstep _ task tasks w (.inr hsettled)) task w h
    obtain ⟨outcomes, w', ho, hrest⟩ := ih (done ++ [((c.finish task).outcome w).1]) (by simpa using hfinished)
    refine ⟨((c.finish task).outcome w).1 :: outcomes, w', ?_, by simpa using hrest⟩
    rw [List.mapM_cons, Attempt.outcome_bind_of_ok (Attempt.outcome_settle _ w), Attempt.outcome_bind_of_ok ho]
    rfl

/-- A chunk comes to what its ingestions come to once the turns have been taken. -/
theorem outcome_ingestChunk_of_finish (chunk : List SignatureInfo) {w : World} {now : List Ingestion × World}
    {outcomes : List (Except Failure Bool)} {w' : World}
    (hturns : (w.turns.headD []).foldl (fun now place => c.turn now.1 now.2 place)
      (chunk.map .waiting, { w with turns := w.turns.tail }) = now)
    (h : Attempt.outcome (now.1.mapM fun task => (c.finish task).settle) now.2 = (.ok outcomes, w')) :
    (c.ingestChunk chunk).outcome w = (allOrFirst outcomes, w') := by
  have hbegun : World.takeTurns.outcome w = (.ok (w.turns.headD []), { w with turns := w.turns.tail }) := rfl
  have htaken : (c.takeTurns (w.turns.headD []) (chunk.map .waiting)).outcome { w with turns := w.turns.tail } =
      (.ok now.1, now.2) := by
    subst hturns
    rfl
  rw [ingestChunk, Attempt.outcome_bind_of_ok hbegun, Attempt.outcome_bind_of_ok htaken, Attempt.outcome_bind_of_ok h]
  cases allOrFirst outcomes <;> rfl

/-- What every step keeps, a chunk keeps until all of it has settled. -/
theorem ingestChunk_induction (hstep : ∀ before task after w, c.MayAdvance before task after →
      Q (before ++ task :: after) w → Q (before ++ (c.advance task w).1 :: after) (c.advance task w).2)
    (chunk : List SignatureInfo) {w : World} (h : Q (chunk.map .waiting) { w with turns := w.turns.tail }) :
    ∃ outcomes w', (c.ingestChunk chunk).outcome w = (allOrFirst outcomes, w') ∧ Q (outcomes.map .settled) w' := by
  have hturns : ∀ (turns : List Nat) (now : List Ingestion × World), Q now.1 now.2 →
      Q (turns.foldl (fun now place => c.turn now.1 now.2 place) now).1
        (turns.foldl (fun now place => c.turn now.1 now.2 place) now).2 := by
    intro turns
    induction turns with
    | nil => exact fun _ h => h
    | cons place turns ih => exact fun now h => ih _ (turn_induction hstep h place)
  obtain ⟨outcomes, w', ho, hsettled⟩ :=
    mapM_finish_induction hstep [] (hturns (w.turns.headD []) (chunk.map .waiting, { w with turns := w.turns.tail }) h)
  exact ⟨outcomes, w', outcome_ingestChunk_of_finish chunk rfl ho, hsettled⟩

end Induction

/-- Ingesting a chunk asks for no page. -/
theorem pageCalls_ingestChunk (c : Crawler) (chunk : List SignatureInfo) (w : World) :
    ((c.ingestChunk chunk).outcome w).2.pageCalls = w.pageCalls := by
  have hkept : ∀ task w', (c.advance task w').2.pageCalls = w'.pageCalls := by
    intro task w'
    cases task with
    | waiting info =>
      obtain ⟨w'', hidles, ho⟩ := c.advance_waiting info w'
      rw [ho, hidles.pageCalls]
    | leaving outcome =>
      obtain ⟨w'', hidles, ho⟩ := c.advance_leaving outcome w'
      rw [ho, hidles.pageCalls]
    | processing | settled => rfl
  obtain ⟨outcomes, w', ho, hsame⟩ := ingestChunk_induction (c := c) (Q := fun _ w' => w'.pageCalls = w.pageCalls)
    (fun _ task _ w' _ h => (hkept task w').trans h) chunk (w := w) rfl
  rw [ho, hsame]

end Crawler

end PairIndex
