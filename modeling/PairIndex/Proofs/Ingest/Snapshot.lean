import PairIndex.Proofs.Ingest.Calls

/-! The row of a pair and the series of its states. They are written by different statements, one that keeps the first
row of a number and one that keeps the highest number; still the row always shows the newest state of the series
(`pair_shows_newest_state`). The invariant is `Shows`; `shows_apply` is its step. -/

namespace PairIndex

/-- What the row of a pair shows: nothing if no state of the pair is stored, and else the state that has
the highest number. -/
inductive Shows (s : Store) (pairAddress : String) : Prop where
  | nothing (series : ∀ n, s.pairStates.find? (pairAddress, n) = none)
      (pair : ∀ pair, s.pairs.find? pairAddress = some pair → pair.latestSeqNum = noSeqApplied ∧ pair.state = .zero)
  | newest (pair : PairRow) (row : PairStateRow) (series : s.pairStates.find? (pairAddress, row.seqNum) = some row)
      (highest : ∀ n, (s.pairStates.find? (pairAddress, n)).isSome → n ≤ row.seqNum)
      (found : s.pairs.find? pairAddress = some pair) (latest : pair.latestSeqNum = row.seqNum)
      (state : pair.state = row.state)

namespace Shows

theorem empty (pairAddress : String) : Shows .empty pairAddress :=
  .nothing (fun _ => rfl) (fun _ h => nomatch h)

variable {s t : Store} {pairAddress : String}

theorem congr (h : Shows s pairAddress)
    (hstates : ∀ n, t.pairStates.find? (pairAddress, n) = s.pairStates.find? (pairAddress, n))
    (hpairs : t.pairs.find? pairAddress = s.pairs.find? pairAddress) : Shows t pairAddress := by
  cases h with
  | nothing series pair => exact .nothing (fun n => (hstates n).trans (series n)) (hpairs ▸ pair)
  | newest pair row series highest found latest state =>
    exact .newest _ row ((hstates _).trans series) (fun n hn => highest n (hstates n ▸ hn)) (hpairs.trans found)
      latest state

/-- The creation of the pair leaves its state alone. -/
theorem created {token0 token1 creator : String} {createdAt : Option Moment} (h : Shows s pairAddress)
    (hstates : ∀ n, t.pairStates.find? (pairAddress, n) = s.pairStates.find? (pairAddress, n))
    (hpairs : t.pairs.find? pairAddress =
      some (((s.pairs.find? pairAddress).getD { pairAddress }).withIdentity token0 token1 creator createdAt)) :
    Shows t pairAddress := by
  cases h with
  | nothing series pair =>
    refine .nothing (fun n => (hstates n).trans (series n)) fun row hrow => ?_
    rw [hpairs] at hrow
    cases hrow
    cases hf : s.pairs.find? pairAddress with
    | none => exact ⟨rfl, rfl⟩
    | some old => exact pair old hf
  | newest pair row series highest found latest state =>
    rw [found] at hpairs
    exact .newest _ row ((hstates _).trans series) (fun n hn => highest n (hstates n ▸ hn)) hpairs latest state

/-- A state of the pair joins the series and the row at once, or neither of them changes what is shown. -/
theorem moved (new : PairStateRow) (h : Shows s pairAddress) (hnonneg : 0 ≤ new.seqNum)
    (hstates : ∀ n, t.pairStates.find? (pairAddress, n) =
      (s.pairStates.find? (pairAddress, n)).or (if new.seqNum = n then some new else none))
    (hpairs : t.pairs.find? pairAddress =
      some (((s.pairs.find? pairAddress).getD { pairAddress }).advance new.seqNum new.state)) :
    Shows t pairAddress := by
  have hstored : ∀ n, (t.pairStates.find? (pairAddress, n)).isSome →
      (s.pairStates.find? (pairAddress, n)).isSome ∨ n = new.seqNum := by
    intro n hn
    by_cases hnew : new.seqNum = n
    · exact Or.inr hnew.symm
    · rw [hstates, if_neg hnew, Option.or_none] at hn
      exact Or.inl hn
  cases h with
  | nothing series pair =>
    have hnewer : ((s.pairs.find? pairAddress).getD { pairAddress }).latestSeqNum < new.seqNum := by
      have hold : ((s.pairs.find? pairAddress).getD { pairAddress }).latestSeqNum = noSeqApplied := by
        cases hf : s.pairs.find? pairAddress with
        | none => rfl
        | some old => exact (pair old hf).1
      rw [hold, noSeqApplied]
      omega
    rw [PairRow.advance, if_pos hnewer] at hpairs
    refine .newest _ new (by simp [hstates, series]) (fun n hn => ?_) hpairs rfl rfl
    rcases hstored n hn with hold | rfl
    · simp [series n] at hold
    · exact Int.le_refl _
  | newest pair row series highest found latest state =>
    rw [found, Option.getD_some, PairRow.advance, latest] at hpairs
    by_cases hnewer : row.seqNum < new.seqNum
    · -- A number above the highest is free in the series, so that the row moves only to a state that is added.
      have hfree : s.pairStates.find? (pairAddress, new.seqNum) = none := by
        cases hf : s.pairStates.find? (pairAddress, new.seqNum) with
        | none => rfl
        | some taken =>
          have hle := highest new.seqNum (by simp [hf])
          omega
      rw [if_pos hnewer] at hpairs
      refine .newest _ new (by simp [hstates, hfree]) (fun n hn => ?_) hpairs rfl rfl
      rcases hstored n hn with hold | rfl
      · exact Int.le_of_lt (Int.lt_of_le_of_lt (highest n hold) hnewer)
      · exact Int.le_refl _
    · rw [if_neg hnewer] at hpairs
      refine .newest _ row (by simp [hstates, series]) (fun n hn => ?_) hpairs latest state
      rcases hstored n hn with hold | rfl
      · exact highest n hold
      · exact Int.not_lt.mp hnewer

end Shows

namespace Commit

/-- Every commit keeps what the row of a pair shows in step with the series. -/
theorem shows_apply (c : Commit) {s : Store} {pairAddress : String} (h : Shows s pairAddress) :
    Shows (c.apply s) pairAddress := by
  cases c with
  | transaction row => exact h.congr (fun _ => rfl) rfl
  | event signature e =>
    have hstates := find?_pairStates_event signature e s pairAddress
    have hpairs := find?_pairs_event signature e s pairAddress
    rcases hchange : e.body.pairChange? with _ | ⟨changed, change⟩
    · simp only [hchange, Option.or_none] at hstates hpairs
      exact h.congr hstates hpairs
    · by_cases hsame : changed = pairAddress
      · subst hsame
        cases change with
        | created token0 token1 creator createdAt =>
          simp only [hchange, Option.or_none, if_true] at hstates hpairs
          exact h.created hstates hpairs
        | moved seqNum state =>
          simp only [hchange, Prod.mk.injEq, true_and, if_true] at hstates hpairs
          exact h.moved { pairAddress := changed, seqNum, signature, state, eventTime := e.body.moment? }
            (EventBody.seqNum_nonneg_of_pairChange? hchange) hstates hpairs
      · have hother : ∀ n, ((Commit.event signature e).apply s).pairStates.find? (pairAddress, n) =
            s.pairStates.find? (pairAddress, n) := by
          intro n
          rw [hstates, hchange]
          cases change <;> simp [hsame]
        simp only [hchange, if_neg hsame] at hpairs
        exact h.congr hother hpairs

theorem shows_applyAll (cs : List Commit) {s : Store} {pairAddress : String} (h : Shows s pairAddress) :
    Shows (applyAll cs s) pairAddress :=
  applyAll_induction (P := (Shows · pairAddress)) cs (fun c _ _ hs => c.shows_apply hs) h

end Commit

/-- The states of a pair that are stored. -/
def Store.seriesOf (s : Store) (pairAddress : String) : List PairStateRow :=
  s.pairStates.rows.filter fun row => row.pairAddress == pairAddress

theorem Store.mem_seriesOf {s : Store} {pairAddress : String} {row : PairStateRow} :
    row ∈ s.seriesOf pairAddress ↔ s.pairStates.find? (pairAddress, row.seqNum) = some row := by
  rw [seriesOf, List.mem_filter, Table.find?_eq_some_iff, PairStateRow.key, beq_iff_eq, Prod.mk.injEq]
  exact and_congr_right fun _ => (and_iff_left rfl).symm

/-- In every store that calls of the processor reach, whatever they are and whatever fails, the row of a pair shows
the stored state that has the highest number, and a pair without stored states shows none. -/
theorem Call.pair_shows_newest_state (run : List (Call × List (Option Failure))) (pairAddress : String) :
    let s := runAll run .empty
    (s.seriesOf pairAddress ≠ [] →
        ∃ pair newest, s.pairs.find? pairAddress = some pair ∧ newest ∈ s.seriesOf pairAddress ∧
          (∀ row ∈ s.seriesOf pairAddress, row.seqNum ≤ newest.seqNum) ∧
          pair.latestSeqNum = newest.seqNum ∧ pair.state = newest.state) ∧
      (s.seriesOf pairAddress = [] →
        ∀ pair, s.pairs.find? pairAddress = some pair → pair.latestSeqNum = noSeqApplied ∧ pair.state = .zero) := by
  intro s
  have h : Shows s pairAddress := by
    rw [show s = Commit.applyAll (trace run) .empty from store_runAll run .empty]
    exact Commit.shows_applyAll _ (Shows.empty pairAddress)
  cases h with
  | nothing series pair =>
    refine ⟨fun hne => ?_, fun _ => pair⟩
    obtain ⟨row, hrow⟩ := List.exists_mem_of_ne_nil _ hne
    rw [Store.mem_seriesOf, series] at hrow
    cases hrow
  | newest pair row series highest found latest state =>
    have hrow : row ∈ s.seriesOf pairAddress := Store.mem_seriesOf.mpr series
    refine ⟨fun _ => ⟨pair, row, found, hrow, fun other hother => ?_, latest, state⟩, fun hnil => ?_⟩
    · exact highest other.seqNum (by simp [Store.mem_seriesOf.mp hother])
    · rw [hnil] at hrow
      cases hrow

end PairIndex
