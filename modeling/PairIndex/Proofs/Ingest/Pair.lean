import PairIndex.Proofs.Ingest.Convergence
import PairIndex.Proofs.Store.Newest

/-! The row of a pair, column by column. What its creation tells is that of the last creation (`identity_applyAll`), and
the state that it shows is the newest that it was moved to (`shown_applyAll`). So two lists of changes may be made in
either order exactly if they do not end with different creations or with different states of one number
(`PairChange.applyAll_swap_iff`). -/

namespace PairIndex

/-! ## Columns -/

/-- What the creation of a pair told, as far as it is known. -/
def PairRow.identity (row : PairRow) : Option String × Option String × Option String × Option Moment :=
  (row.token0, row.token1, row.creator, row.createdAt)

/-- The state that a row shows, with its number. -/
def PairRow.shown (row : PairRow) : Numbered PairAmounts :=
  ⟨row.latestSeqNum, row.state⟩

/-- A row is told by its address and its columns. -/
theorem PairRow.ext_columns {row other : PairRow} (haddress : row.pairAddress = other.pairAddress)
    (hidentity : row.identity = other.identity) (hshown : row.shown = other.shown) : row = other := by
  cases row
  cases other
  cases haddress
  cases hidentity
  cases hshown
  rfl

namespace PairChange

/-- What a creation tells. -/
def identity? : PairChange → Option (Option String × Option String × Option String × Option Moment)
  | .created token0 token1 creator createdAt => some (some token0, some token1, some creator, createdAt)
  | .moved .. => none

def state? : PairChange → Option (Numbered PairAmounts)
  | .created .. => none
  | .moved seqNum state => some ⟨seqNum, state⟩

/-- The row after some changes, one after another. -/
def applyAll (changes : List PairChange) (row : PairRow) : PairRow :=
  changes.foldl (fun row change => change.apply row) row

theorem identity_apply (change : PairChange) (row : PairRow) :
    (change.apply row).identity = change.identity?.getD row.identity := by
  cases change with
  | created => rfl
  | moved seqNum state =>
    rw [apply, PairRow.advance]
    split <;> rfl

theorem shown_apply (change : PairChange) (row : PairRow) :
    (change.apply row).shown = row.shown.newestOf change.state?.toList := by
  cases change with
  | created => rfl
  | moved seqNum state =>
    rw [apply, PairRow.advance]
    by_cases hnewer : row.latestSeqNum < seqNum
    · rw [if_pos hnewer]
      exact (Numbered.newer_of_lt hnewer).symm
    · rw [if_neg hnewer]
      exact (Numbered.newer_of_le (Int.not_lt.mp hnewer)).symm

theorem pairAddress_applyAll (changes : List PairChange) (row : PairRow) :
    (applyAll changes row).pairAddress = row.pairAddress := by
  induction changes generalizing row with
  | nil => rfl
  | cons change changes ih => exact (ih _).trans (change.key_apply row)

/-- The last creation tells. -/
theorem identity_applyAll (changes : List PairChange) (row : PairRow) :
    some (applyAll changes row).identity = (changes.filterMap identity?).getLast?.or (some row.identity) := by
  induction changes generalizing row with
  | nil => rfl
  | cons change changes ih =>
    rw [applyAll, List.foldl_cons, ← applyAll, ih, identity_apply, List.filterMap_cons]
    cases change with
    | created => simp [identity?, List.getLast?_cons, Option.or_some]
    | moved => rfl

/-- The newest state is shown. -/
theorem shown_applyAll (changes : List PairChange) (row : PairRow) :
    (applyAll changes row).shown = row.shown.newestOf (changes.filterMap state?) := by
  induction changes generalizing row with
  | nil => rfl
  | cons change changes ih =>
    rw [applyAll, List.foldl_cons, ← applyAll, ih, shown_apply, ← Numbered.newestOf_append, List.filterMap_cons]
    cases change <;> rfl

/-- Whether there is a creation among some changes. -/
def Creates (changes : List PairChange) : Prop :=
  ∃ change ∈ changes, change.identity? ≠ none

theorem isSome_getLast?_iff_creates (changes : List PairChange) :
    (changes.filterMap identity?).getLast?.isSome ↔ Creates changes :=
  isSome_getLast?_filterMap identity? changes

/-- The creation shows the same in either order if and only if neither or both of the lists create with the same result. -/
theorem identity_swap_iff (changes other : List PairChange) (row : PairRow) :
    (applyAll (changes ++ other) row).identity = (applyAll (other ++ changes) row).identity ↔
      ((Creates changes ↔ Creates other) → (applyAll changes row).identity = (applyAll other row).identity) := by
  rw [← Option.some_inj, ← Option.some_inj (a := (applyAll changes row).identity), identity_applyAll,
    identity_applyAll, identity_applyAll, identity_applyAll, List.filterMap_append, List.filterMap_append,
    List.getLast?_append, List.getLast?_append, ← isSome_getLast?_iff_creates, ← isSome_getLast?_iff_creates]
  exact Option.or_swap_iff

/-- The same state is shown in either order if and only if the lists do not end with different states of one number. -/
theorem shown_swap_iff (changes other : List PairChange) (row : PairRow) :
    (applyAll (changes ++ other) row).shown = (applyAll (other ++ changes) row).shown ↔
      ((applyAll changes row).latestSeqNum = (applyAll other row).latestSeqNum →
        (applyAll changes row).state = (applyAll other row).state) := by
  have hnewest := Numbered.newestOf_comm_iff row.shown (changes.filterMap state?) (other.filterMap state?)
  rw [← List.filterMap_append, ← List.filterMap_append, ← shown_applyAll, ← shown_applyAll, ← shown_applyAll,
    ← shown_applyAll] at hnewest
  refine hnewest.trans (forall_congr' fun hlatest => ?_)
  exact (iff_of_eq (Numbered.mk.injEq ..)).trans (and_iff_right hlatest)

/-- Changes may be made in either order exactly if they do not overwrite one another's creation, and do not end with
different states of one number. -/
theorem applyAll_swap_iff (changes other : List PairChange) (row : PairRow) :
    applyAll (changes ++ other) row = applyAll (other ++ changes) row ↔
      ((Creates changes ↔ Creates other) → (applyAll changes row).identity = (applyAll other row).identity) ∧
        ((applyAll changes row).latestSeqNum = (applyAll other row).latestSeqNum →
          (applyAll changes row).state = (applyAll other row).state) := by
  have haddress : (applyAll (changes ++ other) row).pairAddress = (applyAll (other ++ changes) row).pairAddress :=
    (pairAddress_applyAll ..).trans (pairAddress_applyAll ..).symm
  rw [← identity_swap_iff, ← shown_swap_iff]
  constructor
  · intro hsame
    exact ⟨congrArg PairRow.identity hsame, congrArg PairRow.shown hsame⟩
  · rintro ⟨hidentity, hshown⟩
    exact PairRow.ext_columns haddress hidentity hshown

/-- The row of a pair after some changes; the first of them adds the row if there is none. -/
def rowAfterAll (address : String) (old : Option PairRow) : List PairChange → Option PairRow
  | [] => old
  | change :: changes => some (applyAll (change :: changes) (old.getD { pairAddress := address }))

theorem rowAfterAll_cons (address : String) (old : Option PairRow) (change : PairChange) (changes : List PairChange) :
    rowAfterAll address old (change :: changes) =
      rowAfterAll address (some (change.apply (old.getD { pairAddress := address }))) changes := by
  cases changes <;> rfl

/-- Where there is a row, it shows all changes, and so it does with later ones. -/
theorem rowAfterAll_append {address : String} {old : Option PairRow} {changes : List PairChange} {row : PairRow}
    (h : rowAfterAll address old changes = some row) (later : List PairChange) :
    rowAfterAll address old (changes ++ later) =
      some (applyAll (changes ++ later) (old.getD { pairAddress := address })) := by
  cases changes with
  | cons => rfl
  | nil =>
    cases h
    cases later <;> rfl

theorem eq_nil_of_rowAfterAll {address : String} {old : Option PairRow} {changes : List PairChange}
    (h : rowAfterAll address old changes = none) : changes = [] := by
  cases changes with
  | nil => rfl
  | cons => cases h

/-- The row is the same after changes in either order if and only if creations and states do not contradict one another. -/
theorem rowAfterAll_swap_iff (address : String) (old : Option PairRow) (changes other : List PairChange) :
    rowAfterAll address old (changes ++ other) = rowAfterAll address old (other ++ changes) ↔
      ∀ row ∈ rowAfterAll address old changes, ∀ row' ∈ rowAfterAll address old other,
        ((Creates changes ↔ Creates other) → row.identity = row'.identity) ∧
          (row.latestSeqNum = row'.latestSeqNum → row.state = row'.state) := by
  refine rows_swap_iff eq_nil_of_rowAfterAll fun row row' hrow hrow' => ?_
  have hchanged := rowAfterAll_append hrow []
  have hchanged' := rowAfterAll_append hrow' []
  rw [List.append_nil, hrow, Option.some.injEq] at hchanged
  rw [List.append_nil, hrow', Option.some.injEq] at hchanged'
  rw [rowAfterAll_append hrow, rowAfterAll_append hrow', Option.some.injEq, applyAll_swap_iff, ← hchanged, ← hchanged']

end PairChange

namespace Commit

/-- How a commit changes a pair. -/
def pairChangeOf? (address : String) (c : Commit) : Option PairChange :=
  c.pairChange?.bind fun (pairAddress, change) => if pairAddress = address then some change else none

/-- How commits change a pair, in their order. -/
def pairChangesOf (address : String) (cs : List Commit) : List PairChange :=
  cs.filterMap (pairChangeOf? address)

theorem pairChangesOf_append (address : String) (cs ds : List Commit) :
    pairChangesOf address (cs ++ ds) = pairChangesOf address cs ++ pairChangesOf address ds :=
  List.filterMap_append

theorem pairAfter_eq_rowAfterAll (address : String) (old : Option PairRow) (c : Commit) :
    pairAfter address old c = PairChange.rowAfterAll address old (c.pairChangeOf? address).toList := by
  rw [pairAfter, pairChangeOf?]
  rcases c.pairChange? with _ | ⟨pairAddress, change⟩
  · rfl
  · by_cases hsame : pairAddress = address
    · subst hsame
      simp [PairChange.rowAfterAll, PairChange.applyAll]
    · simp [PairChange.rowAfterAll, hsame]

theorem find?_pairs_eq_rowAfterAll (cs : List Commit) (s : Store) (address : String) :
    (applyAll cs s).pairs.find? address =
      PairChange.rowAfterAll address (s.pairs.find? address) (pairChangesOf address cs) := by
  induction cs generalizing s with
  | nil => rfl
  | cons c cs ih =>
    rw [applyAll_cons, ih, find?_pairs_apply, pairAfter_eq_rowAfterAll, pairChangesOf, pairChangesOf, List.filterMap_cons]
    cases c.pairChangeOf? address with
    | none => rfl
    | some change => exact (PairChange.rowAfterAll_cons ..).symm

end Commit
end PairIndex
