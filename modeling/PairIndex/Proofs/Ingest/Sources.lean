import PairIndex.Proofs.Event.Log
import PairIndex.Proofs.Ingest.Integrity
import PairIndex.Proofs.Ingest.Ownership
import PairIndex.Proofs.Ingest.Pair
import PairIndex.Proofs.Ingest.Quiet
import PairIndex.Proofs.Ingest.Snapshot

/-! One transaction that is processed for two programs. Each program has events of its own in the log, on lines of its own,
but both calls write the row of the one transaction, and their events may be about one pair or one position. Where two
rows have one key the first one stays, of two creations the last one stays, and of two states of one number the first one
stays. So the order of the two programs does not matter exactly if what either of them alone leaves does not contradict
the other in this way (`Call.programs_swap_iff`). -/

namespace PairIndex

/-- All tables hold the same rows. -/
structure Store.Same (s t : Store) : Prop extends Store.SamePairSide s t where
  positions : s.positions.Same t.positions
  watermarks : s.watermarks.Same t.watermarks

/-! ## Rows that follow from others -/

/-- A swap has one price point. -/
theorem SwapRow.Implies.unique {swap : SwapRow} {point point' : PricePointRow} (h : swap.Implies point)
    (h' : swap.Implies point') : point = point' := by
  have hkey := h.key.trans h'.key.symm
  have hprice0 := h.price0.symm.trans h'.price0
  have hprice1 := h.price1.symm.trans h'.price1
  rw [PricePointRow.key, PricePointRow.key, Prod.mk.injEq] at hkey
  rw [Except.ok.injEq] at hprice0 hprice1
  rw [PricePointRow.mk.injEq]
  exact ⟨hkey.1, hkey.2, h.signature.trans h'.signature.symm, hprice0, hprice1, h.reserve0.trans h'.reserve0.symm,
    h.reserve1.trans h'.reserve1.symm, h.eventTime.trans h'.eventTime.symm⟩

/-- If the swaps do not contradict one another, neither do the price points. -/
theorem Commit.pricePoints_agree {cs ds : List Commit}
    (h : (applyAll cs .empty).swaps.Agrees (applyAll ds .empty).swaps) :
    (applyAll cs .empty).pricePoints.Agrees (applyAll ds .empty).pricePoints := by
  intro k point hpoint point' hpoint'
  have hpriced := priced_applyAll cs k
  have hpriced' := priced_applyAll ds k
  have hswaps := h k
  rw [Option.mem_def] at hpoint hpoint'
  rw [hpoint] at hpriced
  rw [hpoint'] at hpriced'
  generalize (applyAll cs .empty).swaps.find? k = swap?, (applyAll ds .empty).swaps.find? k = swap?' at *
  cases hpriced with
  | some hpriced =>
    cases hpriced' with
    | some hpriced' => exact hpriced.unique (hswaps _ rfl _ rfl ▸ hpriced')

/-- The number of a stored state is that of an event. -/
theorem Commit.seqNum_nonneg_of_pairStates {cs : List Commit} {address : String} {n : Int}
    (h : ((applyAll cs .empty).pairStates.find? (address, n)).isSome) : 0 ≤ n := by
  obtain ⟨row, hrow⟩ := Option.isSome_iff_exists.mp h
  obtain ⟨signature, e, -, htold⟩ :=
    exists_event_of_mem_rows (·.pairStates) _ (fun _ _ => rfl) rfl (Table.mem_of_find? hrow)
  obtain ⟨-, hseqNum⟩ := EventBody.numbers_pairStateRow? htold
  obtain ⟨m, -, hm⟩ := Option.map_eq_some_iff.mp hseqNum
  have hn : row.seqNum = n := congrArg Prod.snd (Table.key_of_find? hrow)
  have hm : (m.toNat : Int) = row.seqNum := hm
  omega

/-- If the states of a pair do not contradict one another, neither do the states of one number that its rows show. -/
theorem Shows.state_eq {s t : Store} {address : String} (hs : Shows s address) (ht : Shows t address)
    (hnonneg : ∀ n, (s.pairStates.find? (address, n)).isSome → 0 ≤ n)
    (hnonneg' : ∀ n, (t.pairStates.find? (address, n)).isSome → 0 ≤ n) (hagree : s.pairStates.Agrees t.pairStates)
    {row row' : PairRow} (hrow : s.pairs.find? address = some row) (hrow' : t.pairs.find? address = some row')
    (hlatest : row.latestSeqNum = row'.latestSeqNum) : row.state = row'.state := by
  cases hs with
  | nothing series pair =>
    obtain ⟨hnone, hzero⟩ := pair row hrow
    cases ht with
    | nothing series' pair' => rw [hzero, (pair' row' hrow').2]
    | newest pair' new' series' highest' found' latest' state' =>
      have hnew := hnonneg' new'.seqNum (by rw [series']; rfl)
      rw [found', Option.some.injEq] at hrow'
      rw [← hrow', hnone, latest', noSeqApplied] at hlatest
      omega
  | newest pair new series highest found latest state =>
    rw [found, Option.some.injEq] at hrow
    cases ht with
    | nothing series' pair' =>
      have hnew := hnonneg new.seqNum (by rw [series]; rfl)
      rw [← hrow, latest, (pair' row' hrow').1, noSeqApplied] at hlatest
      omega
    | newest pair' new' series' highest' found' latest' state' =>
      rw [found', Option.some.injEq] at hrow'
      rw [← hrow, ← hrow', latest, latest'] at hlatest
      rw [← hlatest] at series'
      rw [← hrow, ← hrow', state, state', hagree _ new series new' series']

/-! ## Positions in either order -/

namespace PositionTelling

variable {address : String} {old : Option PositionRow} {told other : List PositionTelling} {row row' : PositionRow}

theorem isSome_of_creation? {a : PositionTelling} {owner : Option String × String} (h : a.creation? = some owner) :
    owner.1.isSome := by
  cases a <;> cases h
  rfl

/-- A mark stays. -/
theorem flagOf_append (h : flagOf (rowAfterAll address old told) = true) :
    flagOf (rowAfterAll address old (told ++ other)) = true := by
  rw [rowAfterAll_append, flagOf_rowAfterAll]
  exact Or.inl h

/-- If a position that is marked by some events alone is also marked by them after others, then what marks it in one
order marks it in the other. -/
theorem flagOf_swap (h : flagOf (rowAfterAll address old told) = true →
      flagOf (rowAfterAll address old (other ++ told)) = true)
    (hflag : flagOf (rowAfterAll address old (told ++ other)) = true) :
    flagOf (rowAfterAll address old (other ++ told)) = true := by
  rw [rowAfterAll_append, flagOf_rowAfterAll] at hflag
  rcases hflag with hfirst | hlater
  · exact h hfirst
  · refine flagOf_append (flagOf_rowAfterAll address old other |>.mpr (Or.inr (hlater.of_le ?_)))
    rw [shown_rowAfterAll]
    exact Numbered.le_newestOf _ _

theorem owner_of_creates (h : rowAfterAll address old told = some row) (hcreates : Creates told) :
    row.userAddress.isSome := by
  rw [← isSome_getLast?_iff_creates] at hcreates
  obtain ⟨owner, howner⟩ := Option.isSome_iff_exists.mp hcreates
  obtain ⟨a, -, hcreation⟩ := List.mem_filterMap.mp (List.mem_of_getLast? howner)
  have hrow := owner_rowAfterAll address old told
  rw [h, howner, Option.some_or, Option.map_some, Option.some.injEq] at hrow
  rw [← isSome_of_creation? hcreation, ← hrow]
  rfl

theorem owner_of_not_creates (h : rowAfterAll address old told = some row) (hcreates : ¬Creates told) :
    some row.owner = (old.map (·.owner)).or (told.head?.map owner) := by
  rw [← isSome_getLast?_iff_creates, Bool.not_eq_true, Option.isSome_eq_false_iff, Option.isNone_iff_eq_none] at hcreates
  have hrow := owner_rowAfterAll address old told
  rwa [h, hcreates, Option.none_or, Option.map_some] at hrow

/-- If events start alike, both or neither of two rows tell the user, unless only one of them was created. -/
theorem isSome_userAddress_eq (hrow : rowAfterAll address old told = some row)
    (hrow' : rowAfterAll address old other = some row') (hstart : old = none → StartAlike [told, other])
    (hcreates : Creates told ↔ Creates other) : row.userAddress.isSome = row'.userAddress.isSome := by
  by_cases hcreation : Creates told
  · rw [owner_of_creates hrow hcreation, owner_of_creates hrow' (hcreates.mp hcreation)]
  · have hground := owner_of_not_creates hrow hcreation
    have hground' := owner_of_not_creates hrow' (mt hcreates.mpr hcreation)
    cases old with
    | some before =>
      rw [Option.map_some, Option.some_or, Option.some.injEq] at hground hground'
      exact congrArg (·.1.isSome) (hground.trans hground'.symm)
    | none =>
      rw [Option.map_none, Option.none_or, eq_comm, Option.map_eq_some_iff] at hground hground'
      obtain ⟨a, ha, howner⟩ := hground
      obtain ⟨b, hb, howner'⟩ := hground'
      rcases hstart rfl with ⟨list, hlist, hcreated⟩ | halike
      · rcases List.mem_pair.mp hlist with rfl | rfl
        · exact absurd hcreated hcreation
        · exact absurd (hcreates.mpr hcreated) hcreation
      · have hheads := halike told (by simp) other (by simp) a ha b hb
        rw [howner, howner'] at hheads
        exact hheads

/-- Two rows of which both or neither tell the user have one owner if they tell the same pair and no two users. -/
theorem owner_eq_iff (hsome : row.userAddress.isSome = row'.userAddress.isSome) :
    row.owner = row'.owner ↔
      row.pairAddress = row'.pairAddress ∧ ∀ u ∈ row.userAddress, ∀ v ∈ row'.userAddress, u = v := by
  rw [PositionRow.owner, PositionRow.owner, Prod.mk.injEq, Option.eq_iff_isSome_eq, and_iff_right hsome, and_comm]

/-- The owner that a position has unless it is created: the one that was known, or else the one that is told first. -/
theorem exists_ground (h : rowAfterAll address old told = some row) :
    ∃ ground, ∀ later, (old.map (·.owner)).or ((told ++ later).head?.map owner) = some ground := by
  cases old with
  | some before => exact ⟨before.owner, fun _ => rfl⟩
  | none =>
    cases told with
    | nil => cases h
    | cons first rest => exact ⟨first.owner, fun _ => rfl⟩

/-- The owner is the same after events in either order if and only if they do not contradict one another about it. -/
theorem owner_swap_iff (hstart : old = none → StartAlike [told, other])
    (hrow : rowAfterAll address old told = some row) (hrow' : rowAfterAll address old other = some row') :
    (rowAfterAll address old (told ++ other)).map (·.owner) = (rowAfterAll address old (other ++ told)).map (·.owner) ↔
      ((Creates told ↔ Creates other) →
        row.pairAddress = row'.pairAddress ∧ ∀ u ∈ row.userAddress, ∀ v ∈ row'.userAddress, u = v) := by
  obtain ⟨ground, hground⟩ := exists_ground hrow
  obtain ⟨ground', hground'⟩ := exists_ground hrow'
  have howner := owner_rowAfterAll address old told
  have howner' := owner_rowAfterAll address old other
  rw [hrow, Option.map_some, ← List.append_nil told, hground, List.append_nil] at howner
  rw [hrow', Option.map_some, ← List.append_nil other, hground', List.append_nil] at howner'
  rw [owner_rowAfterAll, owner_rowAfterAll, hground, hground', List.filterMap_append, List.filterMap_append,
    List.getLast?_append, List.getLast?_append, Option.or_swap_iff, ← howner, ← howner', Option.some_inj,
    isSome_getLast?_iff_creates, isSome_getLast?_iff_creates]
  exact forall_congr' fun hcreates => owner_eq_iff (isSome_userAddress_eq hrow hrow' hstart hcreates)

/-- The balances are the same after events in either order if and only if they do not end with different ones of one
number. -/
theorem shown_swap_iff (hrow : rowAfterAll address old told = some row)
    (hrow' : rowAfterAll address old other = some row') :
    shown (rowAfterAll address old (told ++ other)) = shown (rowAfterAll address old (other ++ told)) ↔
      (row.latestSeqNum = row'.latestSeqNum → row.state = row'.state) := by
  have hnewest := Numbered.newestOf_comm_iff (shown old) (told.filterMap balances?) (other.filterMap balances?)
  rw [← List.filterMap_append, ← List.filterMap_append, ← shown_rowAfterAll address, ← shown_rowAfterAll address,
    ← shown_rowAfterAll address, ← shown_rowAfterAll address, hrow, hrow'] at hnewest
  refine hnewest.trans (forall_congr' fun hlatest => ?_)
  exact (iff_of_eq (Numbered.mk.injEq ..)).trans (and_iff_right hlatest)

theorem exists_row_append (hrow : rowAfterAll address old told = some row) (later : List PositionTelling) :
    ∃ last, rowAfterAll address old (told ++ later) = some last := by
  rw [rowAfterAll_append, ← Option.isSome_iff_exists, isSome_rowAfterAll, hrow]
  rfl

/-- The row after events in either order is the same if and only if they do not contradict one another about the owner
and the balances, as long as nothing that either of them tells is lost. -/
theorem rowAfterAll_swap_iff (hold : ∀ row ∈ old, row.positionAddress = address)
    (hstart : old = none → StartAlike [told, other])
    (hmark : flagOf (rowAfterAll address old told) = true → flagOf (rowAfterAll address old (other ++ told)) = true)
    (hmark' : flagOf (rowAfterAll address old other) = true → flagOf (rowAfterAll address old (told ++ other)) = true)
    (hrow : rowAfterAll address old told = some row) (hrow' : rowAfterAll address old other = some row') :
    rowAfterAll address old (told ++ other) = rowAfterAll address old (other ++ told) ↔
      ((Creates told ↔ Creates other) →
        row.pairAddress = row'.pairAddress ∧ ∀ u ∈ row.userAddress, ∀ v ∈ row'.userAddress, u = v) ∧
      (row.latestSeqNum = row'.latestSeqNum → row.state = row'.state) := by
  have howner := owner_swap_iff hstart hrow hrow'
  have hshown := shown_swap_iff hrow hrow'
  obtain ⟨last, hlast⟩ := exists_row_append hrow other
  obtain ⟨last', hlast'⟩ := exists_row_append hrow' told
  have hmarks : flagOf (some last) = flagOf (some last') := by
    rw [Bool.eq_iff_iff, ← hlast, ← hlast']
    exact ⟨flagOf_swap hmark, flagOf_swap hmark'⟩
  have haddress : last.positionAddress = last'.positionAddress :=
    (positionAddress_rowAfterAll hold last hlast).trans (positionAddress_rowAfterAll hold last' hlast').symm
  rw [hlast, hlast'] at howner hshown ⊢
  constructor
  · intro hsame
    exact ⟨howner.mp (congrArg _ hsame), hshown.mp (congrArg shown hsame)⟩
  · rintro ⟨howners, hstates⟩
    exact congrArg some
      (PositionRow.ext_columns haddress (Option.some.inj (howner.mpr howners)) (hshown.mpr hstates) hmarks)

end PositionTelling

/-! ## Commits in either order -/

namespace Commit

variable {cs ds : List Commit} {s : Store} {address : String}

/-- What commits tell of a position is not lost by coming second: a position that is not known yet is told of alike, and
a liquidation that marks a position alone marks it after the other commits, too. -/
structure NothingLost (cs ds : List Commit) (s : Store) : Prop where
  owners : ∀ address, s.positions.find? address = none →
    PositionTelling.StartAlike [tellingsOf address cs, tellingsOf address ds]
  marks : ∀ address, flagOf ((applyAll cs s).positions.find? address) = true →
    flagOf ((applyAll (ds ++ cs) s).positions.find? address) = true
  marks' : ∀ address, flagOf ((applyAll ds s).positions.find? address) = true →
    flagOf ((applyAll (cs ++ ds) s).positions.find? address) = true

/-- What commits leave alone does not contradict what others leave alone: rows of one key are the same, and so are the
creations of a pair or a position, the owner that is told first, and the balances of one number. -/
structure Compatible (cs ds : List Commit) (s : Store) : Prop where
  transactions : (applyAll cs s).transactions.Agrees (applyAll ds s).transactions
  swaps : (applyAll cs s).swaps.Agrees (applyAll ds s).swaps
  liquidityChanges : (applyAll cs s).liquidityChanges.Agrees (applyAll ds s).liquidityChanges
  pairStates : (applyAll cs s).pairStates.Agrees (applyAll ds s).pairStates
  liquidations : (applyAll cs s).liquidations.Agrees (applyAll ds s).liquidations
  pairs : ∀ address, (PairChange.Creates (pairChangesOf address cs) ↔ PairChange.Creates (pairChangesOf address ds)) →
    ∀ row ∈ (applyAll cs s).pairs.find? address, ∀ row' ∈ (applyAll ds s).pairs.find? address,
      row.identity = row'.identity
  owners : ∀ address,
    (PositionTelling.Creates (tellingsOf address cs) ↔ PositionTelling.Creates (tellingsOf address ds)) →
    ∀ row ∈ (applyAll cs s).positions.find? address, ∀ row' ∈ (applyAll ds s).positions.find? address,
      row.pairAddress = row'.pairAddress ∧ ∀ u ∈ row.userAddress, ∀ v ∈ row'.userAddress, u = v
  balances : ∀ address,
    ∀ row ∈ (applyAll cs s).positions.find? address, ∀ row' ∈ (applyAll ds s).positions.find? address,
      row.latestSeqNum = row'.latestSeqNum → row.state = row'.state

/-- The row of a pair is the same in either order if and only if creations and states do not contradict one another. -/
theorem find?_pairs_swap_iff (cs ds : List Commit) (s : Store) (address : String) :
    (applyAll (cs ++ ds) s).pairs.find? address = (applyAll (ds ++ cs) s).pairs.find? address ↔
      ∀ row ∈ (applyAll cs s).pairs.find? address, ∀ row' ∈ (applyAll ds s).pairs.find? address,
        ((PairChange.Creates (pairChangesOf address cs) ↔ PairChange.Creates (pairChangesOf address ds)) →
          row.identity = row'.identity) ∧ (row.latestSeqNum = row'.latestSeqNum → row.state = row'.state) := by
  simp only [find?_pairs_eq_rowAfterAll, pairChangesOf_append]
  exact PairChange.rowAfterAll_swap_iff ..

/-- The row of a position is the same in either order if and only if owners and balances do not contradict one another,
as long as nothing is lost. -/
theorem find?_positions_swap_iff (h : NothingLost cs ds s) (address : String) :
    (applyAll (cs ++ ds) s).positions.find? address = (applyAll (ds ++ cs) s).positions.find? address ↔
      ∀ row ∈ (applyAll cs s).positions.find? address, ∀ row' ∈ (applyAll ds s).positions.find? address,
        ((PositionTelling.Creates (tellingsOf address cs) ↔ PositionTelling.Creates (tellingsOf address ds)) →
          row.pairAddress = row'.pairAddress ∧ ∀ u ∈ row.userAddress, ∀ v ∈ row'.userAddress, u = v) ∧
        (row.latestSeqNum = row'.latestSeqNum → row.state = row'.state) := by
  have hold : ∀ row ∈ s.positions.find? address, row.positionAddress = address := fun _ => Table.key_of_find?
  have hstart := h.owners address
  have hmark := h.marks address
  have hmark' := h.marks' address
  simp only [find?_positions_applyAll, tellingsOf_append] at hmark hmark' ⊢
  generalize s.positions.find? address = old, tellingsOf address cs = told, tellingsOf address ds = other at *
  exact rows_swap_iff PositionTelling.eq_nil_of_rowAfterAll fun row row' hrow hrow' =>
    PositionTelling.rowAfterAll_swap_iff hold hstart hmark hmark' hrow hrow'

/-- Whether a commit tells nothing of any position. -/
def isSilent (c : Commit) : Bool :=
  (c.event?.bind fun (_, body) => body.positionTelling?).isNone

theorem tellingsOf_of_silent (h : ∀ c ∈ cs, c.isSilent = true) (address : String) : tellingsOf address cs = [] := by
  rw [tellingsOf, List.filterMap_eq_nil_iff]
  intro c hc
  have hsilent := Option.isNone_iff_eq_none.mp (h c hc)
  rw [tellingOf?]
  cases hevent : c.event? with
  | none => rfl
  | some told =>
    obtain ⟨signature, body⟩ := told
    rw [hevent, Option.bind_some] at hsilent
    simp only [Option.bind_some, hsilent, Option.bind_none]

/-- Commits that tell nothing of positions lose nothing, and others lose nothing to them. -/
theorem NothingLost.of_silent (h : ∀ c ∈ cs, c.isSilent = true) (ds : List Commit) (s : Store) : NothingLost cs ds s where
  owners := by
    intro address _
    rw [tellingsOf_of_silent h]
    refine Or.inr fun told htold told' htold' a ha b hb => ?_
    rcases List.mem_pair.mp htold with rfl | rfl
    · cases ha
    · rcases List.mem_pair.mp htold' with rfl | rfl
      · cases hb
      · rw [Option.mem_unique ha hb]
  marks := by
    intro address
    rw [find?_positions_applyAll, find?_positions_applyAll, tellingsOf_append, tellingsOf_of_silent h,
      List.append_nil]
    exact fun hflag => (PositionTelling.flagOf_rowAfterAll ..).mpr (Or.inl hflag)
  marks' := by
    intro address
    rw [find?_positions_applyAll, find?_positions_applyAll, tellingsOf_append, tellingsOf_of_silent h,
      List.nil_append]
    exact id

namespace Compatible

variable {es : List Commit}

theorem pricePoints (h : Compatible cs ds (applyAll es .empty)) :
    (applyAll cs (applyAll es .empty)).pricePoints.Agrees (applyAll ds (applyAll es .empty)).pricePoints := by
  have hswaps := h.swaps
  rw [← applyAll_append, ← applyAll_append] at hswaps ⊢
  exact pricePoints_agree hswaps

theorem states (h : Compatible cs ds (applyAll es .empty)) (address : String) :
    ∀ row ∈ (applyAll cs (applyAll es .empty)).pairs.find? address,
      ∀ row' ∈ (applyAll ds (applyAll es .empty)).pairs.find? address,
        row.latestSeqNum = row'.latestSeqNum → row.state = row'.state := by
  have hpairStates := h.pairStates
  rw [← applyAll_append, ← applyAll_append] at hpairStates ⊢
  intro row hrow row' hrow'
  exact Shows.state_eq (shows_applyAll _ (Shows.empty address)) (shows_applyAll _ (Shows.empty address))
    (fun _ => seqNum_nonneg_of_pairStates) (fun _ => seqNum_nonneg_of_pairStates) hpairStates hrow hrow'

end Compatible

/-- Commits leave the same tables in either order if and only if what they leave alone does not contradict, as long as
nothing is lost and the details do not compete. -/
theorem same_swap_iff {es : List Commit} (hs : s = applyAll es .empty) (hlost : NothingLost cs ds s)
    (hdetails : (applyAll cs s).details.Agrees (applyAll ds s).details) :
    (applyAll (cs ++ ds) s).Same (applyAll (ds ++ cs) s) ↔ Compatible cs ds s := by
  constructor
  · intro h
    have hpairs := fun address =>
      (find?_pairs_swap_iff cs ds s address).mp (Table.same_iff_find?.mp h.pairs address)
    have hpositions := fun address =>
      (find?_positions_swap_iff hlost address).mp (Table.same_iff_find?.mp h.positions address)
    exact {
      transactions := (table_swap_iff (·.transactions) _ (fun _ _ => rfl) cs ds s).mp h.transactions
      swaps := (table_swap_iff (·.swaps) _ (fun _ _ => rfl) cs ds s).mp h.swaps
      liquidityChanges := (table_swap_iff (·.liquidityChanges) _ (fun _ _ => rfl) cs ds s).mp h.liquidityChanges
      pairStates := (table_swap_iff (·.pairStates) _ (fun _ _ => rfl) cs ds s).mp h.pairStates
      liquidations := (table_swap_iff (·.liquidations) _ (fun _ _ => rfl) cs ds s).mp h.liquidations
      pairs := fun address hcreates row hrow row' hrow' => (hpairs address row hrow row' hrow').1 hcreates
      owners := fun address hcreates row hrow row' hrow' => (hpositions address row hrow row' hrow').1 hcreates
      balances := fun address row hrow row' hrow' => (hpositions address row hrow row' hrow').2 }
  · intro h
    subst hs
    exact {
      transactions := (table_swap_iff (·.transactions) _ (fun _ _ => rfl) ..).mpr h.transactions
      details := (table_swap_iff (·.details) _ (fun _ _ => rfl) ..).mpr hdetails
      swaps := (table_swap_iff (·.swaps) _ (fun _ _ => rfl) ..).mpr h.swaps
      liquidityChanges := (table_swap_iff (·.liquidityChanges) _ (fun _ _ => rfl) ..).mpr h.liquidityChanges
      pricePoints := (table_swap_iff (·.pricePoints) _ (fun _ _ => rfl) ..).mpr h.pricePoints
      pairStates := (table_swap_iff (·.pairStates) _ (fun _ _ => rfl) ..).mpr h.pairStates
      liquidations := (table_swap_iff (·.liquidations) _ (fun _ _ => rfl) ..).mpr h.liquidations
      pairs := Table.same_iff_find?.mpr fun address => (find?_pairs_swap_iff ..).mpr
        fun row hrow row' hrow' =>
          ⟨fun hcreates => h.pairs address hcreates row hrow row' hrow', h.states address row hrow row' hrow'⟩
      positions := Table.same_iff_find?.mpr fun address => (find?_positions_swap_iff hlost address).mpr
        fun row hrow row' hrow' =>
          ⟨fun hcreates => h.owners address hcreates row hrow row' hrow', h.balances address row hrow row' hrow'⟩
      watermarks := by
        rw [watermarks_applyAll (cs ++ ds), watermarks_applyAll (ds ++ cs)]
        exact List.Perm.refl _ }

end Commit

/-! ## Two programs -/

namespace Call

theorem event_of_mem_committed {tx : LedgerTransaction} {source signature : String} {outlook : List (Option Failure)}
    {e : Event} (h : .event signature e ∈ (fetched tx source).committed outlook) :
    signature = tx.signature ∧ e ∈ eventsOf source tx.logs := by
  rw [committed, transaction?] at h
  cases hmoment : tx.blockTime.mapM Moment.ofSeconds? with
  | none => simp [hmoment] at h
  | some moment =>
    rw [hmoment] at h
    rcases DecodedTransaction.mem_commits.mp (DecodedTransaction.mem_committed h).1 with heq | ⟨-, e', he', heq⟩
    · cases heq
    · cases heq
      exact ⟨rfl, he'⟩

/-- The details of one transaction do not compete, whichever programs it is processed for. -/
theorem details_agree (tx : LedgerTransaction) (a b : String) (s : Store) :
    (Commit.applyAll ((fetched tx a).committed []) s).details.Agrees
      (Commit.applyAll ((fetched tx b).committed []) s).details := by
  intro k row hrow row' hrow'
  rw [Option.mem_def, Commit.find?_applyAll (·.details) Commit.detailRow? (fun _ _ => rfl)] at hrow hrow'
  cases hold : s.details.find? k with
  | some before =>
    rw [hold, Option.some_or, Option.some.injEq] at hrow hrow'
    exact hrow.symm.trans hrow'
  | none =>
    rw [hold, Option.none_or] at hrow hrow'
    obtain ⟨c, hc, hnew⟩ := List.exists_of_findSome?_eq_some hrow
    obtain ⟨d, hd, hnew'⟩ := List.exists_of_findSome?_eq_some hrow'
    obtain ⟨hdetail, hkey⟩ := Table.ofKey_eq_some_iff.mp hnew
    obtain ⟨hdetail', hkey'⟩ := Table.ofKey_eq_some_iff.mp hnew'
    cases c with
    | transaction => cases hdetail
    | event signature e =>
      cases d with
      | transaction => cases hdetail'
      | event signature' e' =>
        cases hdetail
        cases hdetail'
        obtain ⟨rfl, he⟩ := event_of_mem_committed hc
        obtain ⟨rfl, he'⟩ := event_of_mem_committed hd
        rw [Event.detail_key] at hkey hkey'
        have hindex : e.logIndex = e'.logIndex := congrArg Prod.snd (hkey.trans hkey'.symm)
        rw [eq_of_logIndex he he' hindex]

/-- A transaction that is processed for two programs leaves the same tables in either order if and only if what either
call alone leaves does not contradict the other, as long as nothing that they tell of a position is lost. -/
theorem programs_swap_iff (run : List (Call × List (Option Failure))) (tx : LedgerTransaction) (a b : String)
    (h : Commit.NothingLost ((fetched tx a).committed []) ((fetched tx b).committed []) (runAll run .empty)) :
    (runAll [(fetched tx a, []), (fetched tx b, [])] (runAll run .empty)).Same
        (runAll [(fetched tx b, []), (fetched tx a, [])] (runAll run .empty)) ↔
      Commit.Compatible ((fetched tx a).committed []) ((fetched tx b).committed []) (runAll run .empty) := by
  have hswap := Commit.same_swap_iff (store_runAll run .empty) h (details_agree tx a b _)
  rwa [store_runAll [_, _], store_runAll [_, _], trace, trace, List.flatMap_cons, List.flatMap_cons, List.flatMap_cons,
    List.flatMap_cons, List.flatMap_nil, List.append_nil, List.append_nil]

/-- A transaction that adds collateral at a pool and borrows from a lender. -/
def sharedTransaction : LedgerTransaction where
  signature := "shared"
  slot := 1
  logs := ["Program pool invoke [1]",
    "Program data: Y/ZDfiz8wSEKAAAAAAAAAAAAAAAAAAAAAAAAAAAAAAAAAAAAAAAAAAAAAAAAAAAAAAAAAAAAAAEAAAAAAAAAAAAAAAAAAA" ++
      "AAAAAAAAAAAAAAAAAAAAAAAgEAAAAAAAAAAAAAAAAAAAA=",
    "Program pool success", "Program lender invoke [1]",
    "Program data: mQipdM90m4AAAAAAAAAAAAcAAAAAAAAAAAAAAAAAAAAAAAAAAAAAAAAAAAAAAAAAAAAAAAAAAAEAAAAAAAAAAAAAAAAAAA" ++
      "AAAAAAAAAAAAAAAAAAAAAAAwIAAAAAAAAAAAAAAAAAAAA=",
    "Program lender success"]

def atPool : Call :=
  fetched sharedTransaction "pool"

def atLender : Call :=
  fetched sharedTransaction "lender"

theorem committed_atPool : atPool.committed [] = DecodedTransaction.commits
    ⟨"shared", 1, none, [⟨.adjustCollateral 10 0 ⟨.small 1, .small 2, 1, 0⟩, 1⟩], false⟩ := by
  have hdecoded : atPool.transaction? =
      some ⟨"shared", 1, none, [⟨.adjustCollateral 10 0 ⟨.small 1, .small 2, 1, 0⟩, 1⟩], false⟩ := by
    decide +kernel
  rw [committed, hdecoded]
  exact DecodedTransaction.committed_nil (by decide +kernel)

theorem committed_atLender : atLender.committed [] = DecodedTransaction.commits
    ⟨"shared", 1, none, [⟨.adjustDebt 0 7 ⟨.small 1, .small 3, 2, 0⟩, 4⟩], false⟩ := by
  have hdecoded : atLender.transaction? =
      some ⟨"shared", 1, none, [⟨.adjustDebt 0 7 ⟨.small 1, .small 3, 2, 0⟩, 4⟩], false⟩ := by
    decide +kernel
  rw [committed, hdecoded]
  exact DecodedTransaction.committed_nil (by decide +kernel)

theorem programs_swap_iff_shared :
    Commit.NothingLost (atPool.committed []) (atLender.committed []) (runAll [] .empty) ∧
    ((runAll [(atPool, []), (atLender, [])] (runAll [] .empty)).Same
        (runAll [(atLender, []), (atPool, [])] (runAll [] .empty)) ↔
      Commit.Compatible (atPool.committed []) (atLender.committed []) (runAll [] .empty)) := by
  have hsilent : ∀ c ∈ atPool.committed [], c.isSilent = true := by
    rw [committed_atPool]
    decide
  have hlost := Commit.NothingLost.of_silent hsilent (atLender.committed []) (runAll [] .empty)
  exact ⟨hlost, programs_swap_iff [] sharedTransaction "pool" "lender" hlost⟩

/-- The program that comes first tells the type and the pair of the transaction. -/
theorem programs_do_not_commute :
    ¬(runAll [(atPool, []), (atLender, [])] .empty).Same (runAll [(atLender, []), (atPool, [])] .empty) := by
  intro hsame
  have hrow := Table.same_iff_find?.mp hsame.transactions "shared"
  simp only [store_runAll, trace, List.flatMap_cons, List.flatMap_nil, committed_atPool, committed_atLender] at hrow
  revert hrow
  decide +kernel

end Call
end PairIndex
