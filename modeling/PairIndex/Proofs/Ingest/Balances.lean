import PairIndex.Proofs.Ingest.Position

/-! The balances that the row of a position shows. Updates and liquidations of a position share one order of numbers, and
the row takes the balances of an event only if its number is above the one shown. So after any run it shows the first of
the newest balances that were committed, its number never falls, and nothing else changes it
(`Call.position_shows_newest_balances`). -/

namespace PairIndex

namespace PositionTelling

variable {body : EventBody} {address : String} {told : PositionTelling}

/-- The balances that an event tells are those of its move. -/
theorem balances?_eq (h : body.positionTelling? = some (address, told)) :
    told.balances? = body.positionMove?.map fun move => ⟨move.metadata.seqNum.toNat, move.state.amounts⟩ := by
  cases body <;> cases h <;> rfl

theorem position_eq (h : body.positionTelling? = some (address, told)) :
    ∀ move ∈ body.positionMove?, move.position.toText = address := by
  intro move hmove
  cases body <;> cases h <;> cases hmove <;> rfl

theorem seqNum_nonneg (h : body.positionTelling? = some (address, told)) : ∀ b ∈ told.balances?, 0 ≤ b.seqNum := by
  intro b hb
  rw [balances?_eq h] at hb
  obtain ⟨move, -, rfl⟩ := Option.map_eq_some_iff.mp hb
  exact Int.natCast_nonneg _

/-- An event that neither updates nor liquidates a position tells nothing of its balances. -/
theorem balances?_eq_none (h : body.positionTelling? = some (address, told))
    (hother : ∀ move ∈ body.positionMove?, move.position.toText ≠ address) : told.balances? = none := by
  rw [balances?_eq h, Option.map_eq_none_iff, Option.eq_none_iff_forall_not_mem]
  exact fun move hmove => hother move hmove (position_eq h move hmove)

end PositionTelling

namespace Commit

/-- The balances of a position that commits tell, in their order. -/
def balancesOf (address : String) (cs : List Commit) : List (Numbered PositionAmounts) :=
  (tellingsOf address cs).filterMap (·.balances?)

theorem seqNum_nonneg_of_mem_balancesOf {address : String} {cs : List Commit} {b : Numbered PositionAmounts}
    (h : b ∈ balancesOf address cs) : 0 ≤ b.seqNum := by
  obtain ⟨told, htold, hb⟩ := List.mem_filterMap.mp h
  obtain ⟨signature, e, -, htelling⟩ := mem_tellingsOf.mp htold
  exact PositionTelling.seqNum_nonneg htelling b hb

/-- An event that neither updates nor liquidates a position tells nothing of its balances. -/
theorem balancesOf_of_other {signature : String} {e : Event} {address : String}
    (h : ∀ move ∈ e.body.positionMove?, move.position.toText ≠ address) :
    balancesOf address [.event signature e] = [] := by
  rw [balancesOf, List.filterMap_eq_nil_iff]
  intro told htold
  obtain ⟨signature', e', hmem, htelling⟩ := mem_tellingsOf.mp htold
  cases List.mem_singleton.mp hmem
  exact PositionTelling.balances?_eq_none htelling h

/-- A row stays, and shows the newest of its balances and those that commits tell. -/
theorem exists_position_applyAll (cs : List Commit) {s : Store} {address : String} {row : PositionRow}
    (h : s.positions.find? address = some row) :
    ∃ later, (applyAll cs s).positions.find? address = some later ∧
      later.balances = row.balances.newestOf (balancesOf address cs) := by
  rw [find?_positions_applyAll, h]
  have hstays := PositionTelling.isSome_rowAfterAll address (some row) (tellingsOf address cs)
  obtain ⟨later, hlater⟩ := Option.isSome_iff_exists.mp (hstays.trans (Bool.true_or _))
  have hshown := PositionTelling.shown_rowAfterAll address (some row) (tellingsOf address cs)
  rw [hlater] at hshown
  exact ⟨later, hlater, hshown⟩

/-- Commits that start with an empty store leave a position the newest of the balances that they tell. -/
theorem shown_position_applyAll (cs : List Commit) (address : String) :
    PositionTelling.shown ((applyAll cs .empty).positions.find? address) =
      Numbered.noBalances.newestOf (balancesOf address cs) := by
  rw [find?_positions_applyAll]
  exact PositionTelling.shown_rowAfterAll address none _

end Commit

namespace Session

variable {s t : Store} {address : String} {row : PositionRow}

/-- A session that applies an event never lowers the number of a row, and changes its balances only if the event updates
or liquidates the position. -/
theorem balances_applyEvent {signature : String} {e : Event} {newer : Bool}
    (h : (applyEvent signature e).run s = .ok (newer, t)) (hrow : s.positions.find? address = some row) :
    ∃ later, t.positions.find? address = some later ∧ row.latestSeqNum ≤ later.latestSeqNum ∧
      ((∀ move ∈ e.body.positionMove?, move.position.toText ≠ address) → later.balances = row.balances) := by
  rw [run_applyEvent] at h
  by_cases hfits : (Commit.event signature e).fits = true
  · rw [if_pos hfits] at h
    cases h
    obtain ⟨later, hlater, hbalances⟩ := Commit.exists_position_applyAll [.event signature e] hrow
    refine ⟨later, hlater, ?_, fun hother => ?_⟩
    · exact Int.le_trans (Numbered.le_newestOf row.balances _) (Int.le_of_eq (congrArg Numbered.seqNum hbalances.symm))
    · rw [hbalances, Commit.balancesOf_of_other hother, Numbered.newestOf_nil]
  · rw [if_neg hfits] at h
    cases h

/-- A session that registers a creation leaves the balances of every row alone. -/
theorem balances_registerPosition {position user pair : String}
    (h : (registerPosition position user pair).run s = .ok ((), t)) (hrow : s.positions.find? address = some row) :
    ∃ later, t.positions.find? address = some later ∧ later.balances = row.balances := by
  have ht : t.positions = s.positions.upsertIfAny (some
      { fresh := { positionAddress := position, userAddress := some user, pairAddress := pair }
        change := PositionRow.withIdentity user pair
        keeps := fun _ => rfl }) := by
    cases h
    rfl
  rw [ht, Table.find?_upsertIfAny, hrow, Table.Upsert.at]
  by_cases hsame : position = address
  · exact ⟨row.withIdentity user pair, if_pos hsame, rfl⟩
  · exact ⟨row, if_neg hsame, rfl⟩

end Session

/-- After any run of calls, whatever fails, the row of a position shows the first of those balances with the highest number
that were committed, and none if none were. Along the run its number never falls, and neither the registration of a
creation nor an event that does not update or liquidate the position changes its number or its balances. -/
theorem Call.position_shows_newest_balances (run : List (Call × List (Option Failure))) (address : String) :
    let told := Commit.balancesOf address (trace run)
    (told ≠ [] → ∃ row newest, (runAll run .empty).positions.find? address = some row ∧
      Numbered.IsNewest told newest ∧ row.latestSeqNum = newest.seqNum ∧ row.state = newest.value) ∧
    (told = [] → ∀ row, (runAll run .empty).positions.find? address = some row →
      row.latestSeqNum = noSeqApplied ∧ row.state = .zero) ∧
    (∀ before after, run = before ++ after → ∀ row, (runAll before .empty).positions.find? address = some row →
      ∃ later, (runAll run .empty).positions.find? address = some later ∧ row.latestSeqNum ≤ later.latestSeqNum) ∧
    ∀ s row, s.positions.find? address = some row →
      (∀ signature e newer t, (Session.applyEvent signature e).run s = .ok (newer, t) →
        ∃ later, t.positions.find? address = some later ∧ row.latestSeqNum ≤ later.latestSeqNum ∧
          ((∀ move ∈ e.body.positionMove?, move.position.toText ≠ address) → later.balances = row.balances)) ∧
      ∀ position user pair t, (Session.registerPosition position user pair).run s = .ok ((), t) →
        ∃ later, t.positions.find? address = some later ∧ later.balances = row.balances := by
  intro told
  have hshown : PositionTelling.shown ((runAll run .empty).positions.find? address) =
      Numbered.noBalances.newestOf told := by
    rw [store_runAll]
    exact Commit.shown_position_applyAll (trace run) address
  refine ⟨fun hne => ?_, fun hnil row hrow => ?_, fun before after hsplit row hrow => ?_, fun s row hrow => ⟨?_, ?_⟩⟩
  · have habove : ∀ b ∈ told, Numbered.noBalances.seqNum < b.seqNum := fun b hb =>
      Int.lt_of_lt_of_le (by decide) (Commit.seqNum_nonneg_of_mem_balancesOf hb)
    have hnewest := Numbered.isNewest_newestOf habove hne
    have hrow : ((runAll run .empty).positions.find? address).isSome := by
      have htold : Commit.tellingsOf address (trace run) ≠ [] := fun hnil => hne (congrArg (List.filterMap _) hnil)
      rw [store_runAll, Commit.find?_positions_applyAll, PositionTelling.isSome_rowAfterAll]
      simpa using Or.inr htold
    obtain ⟨row, hrow⟩ := Option.isSome_iff_exists.mp hrow
    rw [← hshown, hrow] at hnewest
    exact ⟨row, row.balances, hrow, hnewest, rfl, rfl⟩
  · rw [hnil, hrow] at hshown
    exact ⟨congrArg Numbered.seqNum hshown, congrArg Numbered.value hshown⟩
  · subst hsplit
    obtain ⟨later, hlater, hbalances⟩ := Commit.exists_position_applyAll (trace after) hrow
    refine ⟨later, ?_, ?_⟩
    · rwa [runAll_append, store_runAll after]
    · exact Int.le_trans (Numbered.le_newestOf row.balances _) (Int.le_of_eq (congrArg Numbered.seqNum hbalances.symm))
  · exact fun signature e newer t h => Session.balances_applyEvent h hrow
  · exact fun position user pair t h => Session.balances_registerPosition h hrow

end PairIndex
