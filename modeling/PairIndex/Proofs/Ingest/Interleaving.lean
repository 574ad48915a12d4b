import PairIndex.Ingest.Progress
import PairIndex.Proofs.Ingest.Quiet

/-! Calls of the processor that run at the same time. Each call is a list of sessions, and a schedule says whose
session comes next. A call that runs alone does what `DecodedTransaction.process` does (`Progress.outcome_finish`);
calls that are interleaved make, in some order, just the commits that each of them makes alone (`Pool.run_trace`). -/

namespace PairIndex

namespace Progress

theorem step_recording (tx : DecodedTransaction) (d : Database) :
    (recording tx).step d =
      (match (Commit.transaction tx.row).failure? (nextFault d.outlook) with
        | none =>
          let result := tx.begun (d.store.transactions.find? tx.row.key).isNone
          if tx.failed then .ended (.ok result) else .applying tx.signature tx.events result
        | some failure => .ended (.error failure), d.attempt (.transaction tx.row)) := by
  rw [step, Database.outcome_insertTransaction]
  cases (Commit.transaction tx.row).failure? (nextFault d.outlook) <;> rfl

theorem step_applying (signature : String) (e : Event) (rest : List Event) (result : ProcessResult) (d : Database) :
    (applying signature (e :: rest) result).step d =
      (match (Commit.event signature e).failure? (nextFault d.outlook) with
        | none => .applying signature rest (DecodedTransaction.counted (e.body.isNewer d.store) result)
        | some failure =>
          if failure.isFatal then .ended (.error failure)
          else .applying signature rest { result with failed := result.failed + 1 }, d.attempt (.event signature e)) := by
  rw [step, Database.outcome_applyEvent]
  cases (Commit.event signature e).failure? (nextFault d.outlook) with
  | none => cases e.body.isNewer d.store <;> rfl
  | some failure => rfl

/-- A call that runs alone does what it does after one more session. -/
theorem outcome_finish (p : Progress) (d : Database) : p.finish.outcome d = (p.step d).1.finish.outcome (p.step d).2 := by
  cases p with
  | recording tx =>
    rw [finish, DecodedTransaction.outcome_process, step_recording]
    cases (Commit.transaction tx.row).failure? (nextFault d.outlook) with
    | none => cases hfailed : tx.failed <;> simp [finish]
    | some failure => simp [finish]
  | applying signature rest result =>
    cases rest with
    | nil => rfl
    | cons e rest =>
      rw [finish, DecodedTransaction.outcome_applyEvents_cons, step_applying]
      cases (Commit.event signature e).failure? (nextFault d.outlook) with
      | none => rfl
      | some failure => cases hfatal : failure.isFatal <;> simp [finish, hfatal]
  | ended outcome => rfl

/-- How many steps a call takes at most until it ended. -/
def remaining : Progress → Nat
  | .recording tx => tx.events.length + 2
  | .applying _ rest _ => rest.length + 1
  | .ended _ => 0

theorem remaining_step (p : Progress) (d : Database) : (p.step d).1.remaining ≤ p.remaining - 1 := by
  cases p with
  | recording tx =>
    rw [step_recording]
    cases (Commit.transaction tx.row).failure? (nextFault d.outlook) with
    | none => cases hfailed : tx.failed <;> simp [remaining]
    | some failure => simp [remaining]
  | applying signature rest result =>
    cases rest with
    | nil => exact Nat.le_refl 0
    | cons e rest =>
      rw [step_applying]
      cases (Commit.event signature e).failure? (nextFault d.outlook) with
      | none => exact Nat.le_refl _
      | some failure => cases hfatal : failure.isFatal <;> simp [remaining, hfatal]
  | ended outcome => exact Nat.le_refl 0

/-- The commits that a call is still to make if the store reports no failure. -/
def pending : Progress → List Commit
  | .recording tx => tx.committed []
  | .applying signature rest _ => committedEvents signature rest []
  | .ended _ => []

/-- While the store reports no failure, a session makes the first pending commit, or none. -/
theorem step_pending (p : Progress) {d : Database} (hd : d.Quiet) :
    (p.step d).2.Quiet ∧ ∃ made, p.pending = made ++ (p.step d).1.pending ∧
      (p.step d).2.store = Commit.applyAll made d.store := by
  have hnone : nextFault d.outlook = nextFault [] := hd.nextFault
  cases p with
  | recording tx =>
    refine ⟨by rw [step_recording]; exact hd.attempt _, ?_⟩
    rw [step_recording, pending, DecodedTransaction.committed, Database.attempt, hnone]
    cases hf : (Commit.transaction tx.row).failure? (nextFault []) with
    | none =>
      refine ⟨[.transaction tx.row], ?_, rfl⟩
      cases hfailed : tx.failed <;> simp [pending]
    | some failure => exact ⟨[], rfl, rfl⟩
  | applying signature rest result =>
    cases rest with
    | nil => exact ⟨hd, [], rfl, rfl⟩
    | cons e rest =>
      refine ⟨by rw [step_applying]; exact hd.attempt _, ?_⟩
      rw [step_applying, pending, committedEvents, Database.attempt, hnone]
      cases hf : (Commit.event signature e).failure? (nextFault []) with
      | none => exact ⟨[.event signature e], by simp [pending], rfl⟩
      | some failure =>
        refine ⟨[], ?_, rfl⟩
        cases hfatal : failure.isFatal <;> simp [pending, hfatal]
  | ended outcome => exact ⟨hd, [], rfl, rfl⟩

def isEnded : Progress → Bool
  | .ended _ => true
  | _ => false

theorem pending_of_isEnded {p : Progress} (h : p.isEnded = true) : p.pending = [] := by
  cases p with
  | ended outcome => rfl
  | recording => cases h
  | applying => cases h

end Progress

/-- Calls under way, and the database that they share. -/
structure Pool where
  calls : List Progress
  database : Database

namespace Pool

/-- Calls that are to begin, with a store that reports no failure. -/
def start (txs : List DecodedTransaction) (s : Store) : Pool where
  calls := txs.map .recording
  database := { store := s }

/-- The pool after the next session of one of the calls. -/
def step (p : Pool) (turn : Nat) : Pool :=
  match p.calls[turn]? with
  | none => p
  | some call =>
    { calls := p.calls.set turn (call.step p.database).1, database := (call.step p.database).2 }

/-- The pool after a schedule, which tells whose turn it is. -/
def run (p : Pool) (schedule : List Nat) : Pool :=
  schedule.foldl step p

def isDone (p : Pool) : Bool :=
  p.calls.all (·.isEnded)

/-- A commit that some call is still to make. -/
def Pending (p : Pool) (c : Commit) : Prop :=
  ∃ call ∈ p.calls, c ∈ call.pending

theorem exists_pending_split (before after : List Progress) (call : Progress) (c : Commit) :
    (∃ p ∈ before ++ call :: after, c ∈ p.pending) ↔ c ∈ call.pending ∨ ∃ p ∈ before ++ after, c ∈ p.pending := by
  simp only [List.mem_append, List.mem_cons, or_and_right, exists_or, exists_eq_left]
  exact or_left_comm

/-- One turn makes commits that were pending, and leaves the others pending. -/
theorem step_trace (p : Pool) (turn : Nat) (h : p.database.Quiet) :
    (p.step turn).database.Quiet ∧ ∃ made,
      (p.step turn).database.store = Commit.applyAll made p.database.store ∧
      ∀ c, p.Pending c ↔ c ∈ made ∨ (p.step turn).Pending c := by
  rw [step]
  cases hcall : p.calls[turn]? with
  | none => exact ⟨h, [], rfl, by simp⟩
  | some call =>
    obtain ⟨hquiet, made, hpending, hstore⟩ := call.step_pending h
    refine ⟨hquiet, made, hstore, fun c => ?_⟩
    obtain ⟨hlt, hget⟩ := List.getElem?_eq_some_iff.mp hcall
    -- Only the call whose turn it is changes; the others keep what they have pending.
    have hcalls : p.calls = p.calls.take turn ++ call :: p.calls.drop (turn + 1) := by
      rw [← hget, List.getElem_cons_drop, List.take_append_drop]
    have hnext : p.calls.set turn (call.step p.database).1 =
        p.calls.take turn ++ (call.step p.database).1 :: p.calls.drop (turn + 1) := by
      rw [List.set_eq_take_append_cons_drop, if_pos hlt]
    have hbefore := exists_pending_split (p.calls.take turn) (p.calls.drop (turn + 1)) call c
    have hafter := exists_pending_split (p.calls.take turn) (p.calls.drop (turn + 1)) (call.step p.database).1 c
    rw [← hcalls, hpending, List.mem_append] at hbefore
    rw [← hnext] at hafter
    exact hbefore.trans ((or_assoc).trans (or_congr_right hafter.symm))

/-- The commits of an interleaving: every commit that was pending was made or is still pending. -/
theorem run_trace (p : Pool) (schedule : List Nat) (h : p.database.Quiet) :
    ∃ trace, (p.run schedule).database.store = Commit.applyAll trace p.database.store ∧
      ∀ c, p.Pending c ↔ c ∈ trace ∨ (p.run schedule).Pending c := by
  induction schedule generalizing p with
  | nil => exact ⟨[], rfl, by simp [run]⟩
  | cons turn rest ih =>
    obtain ⟨hquiet, made, hstore, hpending⟩ := p.step_trace turn h
    obtain ⟨trace, hstore', hpending'⟩ := ih (p.step turn) hquiet
    refine ⟨made ++ trace, ?_, fun c => ?_⟩
    · rw [Commit.applyAll_append, ← hstore]
      exact hstore'
    · rw [hpending, hpending', List.mem_append, or_assoc]
      rfl

/-- Once all calls ended, the commits of an interleaving are those that each call makes alone. -/
theorem trace_of_isDone {txs : List DecodedTransaction} {s : Store} {schedule : List Nat}
    (h : ((start txs s).run schedule).isDone = true) :
    ∃ trace, ((start txs s).run schedule).database.store = Commit.applyAll trace s ∧
      ∀ c, c ∈ trace ↔ ∃ tx ∈ txs, c ∈ tx.committed [] := by
  obtain ⟨trace, hstore, hpending⟩ := (start txs s).run_trace schedule nofun
  refine ⟨trace, hstore, fun c => ?_⟩
  have hnone : ¬((start txs s).run schedule).Pending c := by
    rintro ⟨call, hcall, hc⟩
    rw [Progress.pending_of_isEnded (List.all_eq_true.mp h call hcall)] at hc
    cases hc
  have hstart : (start txs s).Pending c ↔ ∃ tx ∈ txs, c ∈ tx.committed [] := by
    constructor
    · rintro ⟨call, hcall, hc⟩
      obtain ⟨tx, htx, rfl⟩ := List.mem_map.mp hcall
      exact ⟨tx, htx, hc⟩
    · rintro ⟨tx, htx, hc⟩
      exact ⟨.recording tx, List.mem_map_of_mem htx, hc⟩
  rw [← hstart, hpending, or_iff_left hnone]

end Pool
end PairIndex
