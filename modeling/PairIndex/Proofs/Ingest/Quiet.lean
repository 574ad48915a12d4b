import PairIndex.Proofs.Ingest.Calls

/-! Calls while the store reports no failure. A transaction whose row fits is processed to its last event, and of its
commits those are made that fit (`Database.Quiet.outcome_process`, `Database.Quiet.committed_eq`). -/

namespace PairIndex

/-- No session is going to fail. -/
def Database.Quiet (db : Database) : Prop :=
  ∀ fault ∈ db.outlook, fault = none

namespace Database.Quiet

variable {db : Database}

theorem nextFault (h : db.Quiet) : nextFault db.outlook = none := by
  rw [PairIndex.nextFault]
  cases houtlook : db.outlook with
  | nil => rfl
  | cons fault rest =>
    have hfault := h fault (by rw [houtlook]; exact List.mem_cons_self)
    rw [hfault]
    rfl

theorem tail (h : db.Quiet) (s : Store) : Database.Quiet { store := s, outlook := db.outlook.tail } :=
  fun fault hfault => h fault (List.mem_of_mem_tail hfault)

theorem attempt (h : db.Quiet) (c : Commit) : (db.attempt c).Quiet :=
  h.tail _

/-- A commit that fits is made. -/
theorem failure?_eq_none (h : db.Quiet) {c : Commit} (hfits : c.fits = true) :
    c.failure? (PairIndex.nextFault db.outlook) = none := by
  rw [h.nextFault, Commit.failure?_none, if_pos hfits]

/-- Of the events those are committed that fit. -/
theorem committedEvents_eq (h : db.Quiet) (signature : String) (events : List Event) :
    committedEvents signature events db.outlook = (events.map (Commit.event signature)).filter (·.fits) := by
  induction events generalizing db with
  | nil => rfl
  | cons e rest ih =>
    have hrest := ih (h.attempt (.event signature e))
    rw [committedEvents, h.nextFault, Commit.failure?_none, List.map_cons]
    by_cases hfits : (Commit.event signature e).fits = true
    · simp only [if_pos hfits, List.filter_cons_of_pos hfits]
      exact congrArg _ hrest
    · have hgoing : Session.columnOverflow.isFatal = false := rfl
      simp only [if_neg hfits, hgoing, Bool.false_eq_true, if_false, List.filter_cons_of_neg hfits]
      exact hrest

/-- Events are applied to the last, and those that do not fit are counted as failed. -/
theorem outcome_applyEvents (h : db.Quiet) (signature : String) (events : List Event) (result : ProcessResult) :
    ∃ r db', (DecodedTransaction.applyEvents signature events result).outcome db = (.ok r, db') ∧
      r.failed = result.failed + events.countP (fun e => !(Commit.event signature e).fits) ∧ db'.Quiet := by
  induction events generalizing db result with
  | nil => exact ⟨result, db, rfl, rfl, h⟩
  | cons e rest ih =>
    rw [DecodedTransaction.outcome_applyEvents_cons, h.nextFault, Commit.failure?_none]
    by_cases hfits : (Commit.event signature e).fits = true
    · obtain ⟨r, db', ho, hcount, hquiet⟩ :=
        ih (h.attempt (.event signature e)) (DecodedTransaction.counted (e.body.isNewer db.store) result)
      simp only [if_pos hfits]
      refine ⟨r, db', ho, ?_, hquiet⟩
      rw [hcount, DecodedTransaction.failed_counted, List.countP_cons_of_neg (by simp [hfits])]
    · obtain ⟨r, db', ho, hcount, hquiet⟩ :=
        ih (h.attempt (.event signature e)) { result with failed := result.failed + 1 }
      have hgoing : Session.columnOverflow.isFatal = false := rfl
      simp only [if_neg hfits, hgoing, Bool.false_eq_true, if_false]
      refine ⟨r, db', ho, ?_, hquiet⟩
      have hfailed : ({ result with failed := result.failed + 1 } : ProcessResult).failed = result.failed + 1 := rfl
      rw [hcount, List.countP_cons_of_pos (by simp [hfits]), hfailed]
      omega

/-- A transaction whose row fits is processed, and of the events that are applied those are counted as failed that do
not fit. -/
theorem failed_process (h : db.Quiet) {d : DecodedTransaction} (hrow : (Commit.transaction d.row).fits = true) :
    ∃ r db', d.process.outcome db = (.ok r, db') ∧
      r.failed = (if d.failed then 0 else d.events.countP fun e => !(Commit.event d.signature e).fits) ∧ db'.Quiet := by
  rw [DecodedTransaction.outcome_process]
  simp only [h.failure?_eq_none hrow]
  cases d.failed with
  | true => exact ⟨_, _, rfl, rfl, h.attempt _⟩
  | false =>
    obtain ⟨r, db', ho, hcount, hquiet⟩ := (h.attempt (.transaction d.row)).outcome_applyEvents d.signature d.events
      (d.begun (db.store.transactions.find? d.row.key).isNone)
    exact ⟨r, db', ho, hcount.trans (Nat.zero_add _), hquiet⟩

/-- A transaction whose row fits is processed, and without a failure if and only if all of it fits. -/
theorem outcome_process (h : db.Quiet) {d : DecodedTransaction} (hrow : (Commit.transaction d.row).fits = true) :
    ∃ r db', d.process.outcome db = (.ok r, db') ∧ (r.isOk = true ↔ ∀ c ∈ d.commits, c.fits = true) ∧ db'.Quiet := by
  obtain ⟨r, db', ho, hcount, hquiet⟩ := h.failed_process hrow
  refine ⟨r, db', ho, ?_, hquiet⟩
  rw [ProcessResult.isOk, hcount, beq_iff_eq, DecodedTransaction.commits, List.forall_mem_cons, hrow]
  cases d.failed with
  | true => simp
  | false => simp [List.countP_eq_zero]

/-- Of a transaction whose row fits all is committed that fits. -/
theorem committed_eq (h : db.Quiet) {d : DecodedTransaction} (hrow : (Commit.transaction d.row).fits = true) :
    d.committed db.outlook = d.commits.filter (·.fits) := by
  rw [DecodedTransaction.committed, DecodedTransaction.commits, h.failure?_eq_none hrow,
    List.filter_cons_of_pos hrow]
  cases d.failed with
  | true => rfl
  | false => exact congrArg _ ((h.attempt (.transaction d.row)).committedEvents_eq d.signature d.events)

end Database.Quiet

namespace DecodedTransaction

variable {tx : DecodedTransaction}

/-- Of a transaction whose row fits all is committed that fits. -/
theorem committed_nil_eq_filter (hrow : (Commit.transaction tx.row).fits = true) :
    tx.committed [] = tx.commits.filter (·.fits) := by
  have hquiet : Database.Quiet { store := .empty } := nofun
  exact hquiet.committed_eq hrow

/-- Of a transaction that fits all is committed. -/
theorem committed_nil (h : ∀ c ∈ tx.commits, c.fits = true) : tx.committed [] = tx.commits := by
  rw [committed_nil_eq_filter (h (.transaction tx.row) List.mem_cons_self), List.filter_eq_self.mpr h]

end DecodedTransaction
end PairIndex
