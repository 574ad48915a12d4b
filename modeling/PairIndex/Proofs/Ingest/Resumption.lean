import PairIndex.Proofs.Ingest.Disruption
import PairIndex.Proofs.Ingest.Pair
import PairIndex.Proofs.Ingest.Position

/-! Processing a transaction again after a call that was cut short. Commits that are made again in their order change
nothing, whatever they tell of one pair and one position (`Commit.applyAll_again`). A call that is cut short leaves the
first commits of the whole call (`DecodedTransaction.exists_prefix_disrupted`), and it may be cut short after any of
them (`DecodedTransaction.disrupted_of_cut`). So the next call finds them made and goes on from there. -/

namespace PairIndex

/-! ## Rows that are changed again -/

namespace PairChange

theorem applyAll_again (changes : List PairChange) (row : PairRow) :
    applyAll changes (applyAll changes row) = applyAll changes row := by
  apply PairRow.ext_columns
  · exact pairAddress_applyAll ..
  · rw [← Option.some_inj, identity_applyAll]
    exact Option.or_again (identity_applyAll changes row)
  · rw [shown_applyAll, shown_applyAll, Numbered.newestOf_again]

theorem rowAfterAll_again (address : String) (old : Option PairRow) (changes : List PairChange) :
    rowAfterAll address (rowAfterAll address old changes) changes = rowAfterAll address old changes := by
  cases changes with
  | nil => rfl
  | cons change changes => exact congrArg some (applyAll_again ..)

end PairChange

namespace PositionTelling

variable {address : String} {old : Option PositionRow} {told : List PositionTelling}

/-- Nothing that was told of a position is above the number that it shows. -/
theorem not_liquidatedAbove_shown (address : String) (old : Option PositionRow) (told : List PositionTelling) :
    ¬LiquidatedAbove (shown (rowAfterAll address old told)).seqNum (told.filterMap news?) := by
  rintro ⟨before, n, after, hnews, habove, -⟩
  have hmem : (⟨n, true⟩ : PositionNews) ∈ told.filterMap news? := by
    rw [hnews]
    exact List.mem_append_right _ List.mem_cons_self
  obtain ⟨telling, htold, hnews?⟩ := List.mem_filterMap.mp hmem
  cases telling with
  | created => cases hnews?
  | moved owner pair balances liquidated =>
    have hn : balances.seqNum = n := congrArg PositionNews.seqNum (Option.some.inj hnews?)
    have hle : balances.seqNum ≤ (shown (rowAfterAll address old told)).seqNum := by
      rw [shown_rowAfterAll]
      exact Numbered.le_newestOf_of_mem (List.mem_filterMap.mpr ⟨_, htold, rfl⟩)
    omega

theorem owner_again {row row' : PositionRow} (hrow : rowAfterAll address old told = some row)
    (hrow' : rowAfterAll address (some row) told = some row') : row'.owner = row.owner := by
  have howner := owner_rowAfterAll address old told
  have howner' := owner_rowAfterAll address (some row) told
  rw [hrow] at howner
  rw [hrow'] at howner'
  exact Option.some.inj (howner'.trans (Option.or_again howner))

theorem liquidated_again {row row' : PositionRow} (hrow : rowAfterAll address old told = some row)
    (hrow' : rowAfterAll address (some row) told = some row') : row'.liquidated = row.liquidated := by
  have hflag : flagOf (some row') = true ↔ _ := hrow' ▸ flagOf_rowAfterAll address (some row) told
  have hnone : ¬LiquidatedAbove (shown (some row)).seqNum (told.filterMap news?) :=
    hrow ▸ not_liquidatedAbove_shown address old told
  rw [or_iff_left hnone] at hflag
  exact Bool.eq_iff_iff.mpr hflag

theorem rowAfterAll_again (hold : ∀ row ∈ old, row.positionAddress = address) (told : List PositionTelling) :
    rowAfterAll address (rowAfterAll address old told) told = rowAfterAll address old told := by
  have haddress : ∀ row ∈ rowAfterAll address old told, row.positionAddress = address :=
    positionAddress_rowAfterAll hold
  cases hrow : rowAfterAll address old told with
  | none =>
    rw [eq_nil_of_rowAfterAll hrow]
    rfl
  | some row =>
    have hagain : (rowAfterAll address (some row) told).isSome := by simp [isSome_rowAfterAll]
    obtain ⟨row', hrow'⟩ := Option.isSome_iff_exists.mp hagain
    rw [hrow']
    refine congrArg some (PositionRow.ext_columns ?_ (owner_again hrow hrow') ?_ (liquidated_again hrow hrow'))
    · rw [positionAddress_rowAfterAll (fun _ h => haddress _ (hrow ▸ h)) row' hrow', haddress row hrow]
    · have hshown := shown_rowAfterAll address old told
      have hshown' := shown_rowAfterAll address (some row) told
      rw [hrow] at hshown
      rw [hrow', hshown, Numbered.newestOf_again, ← hshown] at hshown'
      exact hshown'

end PositionTelling

/-! ## Commits that are made again -/

attribute [ext] Store

namespace Commit

section Insertions

variable {α κ : Type} [DecidableEq κ] {key : α → κ} (tableOf : Store → Table key) (rowOf : Commit → Option α)
  (happly : ∀ c s, tableOf (c.apply s) = (tableOf s).insertIfAny (rowOf c))

include happly

/-- Rows whose keys are taken are not added again. -/
theorem insertions_of_held {cs : List Commit} {s : Store} (h : ∀ c ∈ cs, (tableOf s).Holds (rowOf c)) :
    tableOf (applyAll cs s) = tableOf s := by
  refine applyAll_induction (P := fun s' => tableOf s' = tableOf s) cs (fun c hc s' hs' => ?_) rfl
  rw [happly, hs']
  exact (h c hc).insertIfAny_eq

theorem insertions_again (cs : List Commit) (s : Store) :
    tableOf (applyAll cs (applyAll cs s)) = tableOf (applyAll cs s) :=
  insertions_of_held tableOf rowOf happly fun _ hc => holds_applyAll tableOf rowOf happly hc s

end Insertions

section Changes

variable {α κ : Type} [DecidableEq κ] {key : α → κ} (tableOf : Store → Table key)
  (changeOf : Commit → Option (Table.Upsert key))
  (happly : ∀ c s, tableOf (c.apply s) = (tableOf s).upsertIfAny (changeOf c))

include happly

theorem mem_keys_applyAll {cs : List Commit} {s : Store} {k : κ} :
    k ∈ (tableOf (applyAll cs s)).keys ↔ k ∈ (tableOf s).keys ∨ ∃ c ∈ cs, ∃ u ∈ changeOf c, key u.fresh = k := by
  induction cs generalizing s with
  | nil => simp
  | cons c cs ih =>
    rw [applyAll_cons, ih, happly, Table.mem_keys_upsertIfAny, or_assoc]
    simp

/-- Changes of rows that are there leave the keys alone. -/
theorem keys_applyAll_again (cs : List Commit) (s : Store) :
    (tableOf (applyAll cs (applyAll cs s))).keys = (tableOf (applyAll cs s)).keys := by
  refine applyAll_induction (P := fun s' => (tableOf s').keys = (tableOf (applyAll cs s)).keys) cs
    (fun c hc s' hs' => ?_) rfl
  rw [happly, Table.keys_upsertIfAny, hs']
  intro u hu
  rw [hs', mem_keys_applyAll tableOf changeOf happly]
  exact .inr ⟨c, hc, u, hu, rfl⟩

theorem changes_again {cs : List Commit} {s : Store}
    (hfind : ∀ k, (tableOf (applyAll cs (applyAll cs s))).find? k = (tableOf (applyAll cs s)).find? k) :
    tableOf (applyAll cs (applyAll cs s)) = tableOf (applyAll cs s) :=
  Table.eq_of_keys (keys_applyAll_again tableOf changeOf happly cs s) hfind

end Changes

theorem pairs_again (cs : List Commit) (s : Store) :
    (applyAll cs (applyAll cs s)).pairs = (applyAll cs s).pairs := by
  refine changes_again (·.pairs) (fun c => c.event?.bind (·.2.pairUpsert?)) (fun _ _ => rfl) fun address => ?_
  rw [find?_pairs_eq_rowAfterAll, find?_pairs_eq_rowAfterAll, PairChange.rowAfterAll_again]

theorem positions_again (cs : List Commit) (s : Store) :
    (applyAll cs (applyAll cs s)).positions = (applyAll cs s).positions := by
  refine changes_again (·.positions) (fun c => c.event?.bind (·.2.positionUpsert?)) (fun _ _ => rfl) fun address => ?_
  rw [find?_positions_applyAll, find?_positions_applyAll]
  exact PositionTelling.rowAfterAll_again (fun row hrow => Table.key_of_find? hrow) _

/-- Commits that are made again in their order change nothing. -/
theorem applyAll_again (cs : List Commit) (s : Store) : applyAll cs (applyAll cs s) = applyAll cs s := by
  apply Store.ext
  · exact insertions_again (·.transactions) transactionRow? (fun _ _ => rfl) cs s
  · exact insertions_again (·.details) detailRow? (fun _ _ => rfl) cs s
  · exact insertions_again (·.swaps) _ (fun _ _ => rfl) cs s
  · exact insertions_again (·.liquidityChanges) _ (fun _ _ => rfl) cs s
  · exact insertions_again (·.pricePoints) _ (fun _ _ => rfl) cs s
  · exact insertions_again (·.pairStates) _ (fun _ _ => rfl) cs s
  · exact insertions_again (·.liquidations) _ (fun _ _ => rfl) cs s
  · exact pairs_again cs s
  · exact positions_again cs s
  · rw [watermarks_applyAll]

/-- Commits whose first ones were made before leave what they leave at once. -/
theorem applyAll_of_prefix {done cs : List Commit} (h : done <+: cs) (s : Store) :
    applyAll cs (applyAll done s) = applyAll cs s := by
  obtain ⟨rest, rfl⟩ := h
  rw [applyAll_append, applyAll_append, applyAll_again]

end Commit

/-! ## Calls that are cut short -/

namespace DecodedTransaction

/-- If only fatal failures are met, the events that show in the store are the first ones, as far as they fit. -/
theorem exists_prefix_runSessions (signature : String) {turns : List Turn}
    (hfatal : ∀ turn ∈ turns, ∀ failure ∈ turn.failures, failure.isFatal = true) (result : ProcessResult) (s : Store) :
    ∃ done, done <+: ((turns.map (·.event)).map (Commit.event signature)).filter (·.fits) ∧
      ((runSessions (turns.map (·.session signature)) result).outcome
          { store := s, outlook := turns.map (·.refusal) }).2.store = Commit.applyAll done s := by
  induction turns generalizing result s with
  | nil => exact ⟨[], List.prefix_rfl, rfl⟩
  | cons turn rest ih =>
    obtain ⟨hfirst, hrest⟩ := List.forall_mem_cons.mp hfatal
    simp only [List.map_cons, outcome_runSessions_cons]
    rcases turn.transact_session signature s (rest.map (·.refusal)) with
      ⟨hsucceeds, hrun⟩ | ⟨-, failure, hrun, hmem | ⟨rfl, hfits⟩⟩
    · have hfits := ((turn.succeeds_iff signature).mp hsucceeds).2.2
      obtain ⟨done, hprefix, hstore⟩ :=
        ih hrest (counted (turn.event.body.isNewer s) result) ((Commit.event signature turn.event).apply s)
      rw [hrun, List.filter_cons_of_pos hfits]
      exact ⟨_ :: done, (List.prefix_cons_inj _).mpr hprefix, hstore⟩
    · -- The call ends here.
      rw [hrun]
      refine ⟨[], List.nil_prefix, ?_⟩
      simp only [hfirst failure hmem, if_true]
      rfl
    · -- An event that does not fit is left out, by this call as by any other.
      rw [hrun, List.filter_cons_of_neg hfits]
      exact ih hrest { result with failed := result.failed + 1 } s

/-- A call that meets only fatal failures leaves the first of the commits that it makes without them. -/
theorem exists_prefix_disrupted {tx : DecodedTransaction} {turns : List Turn}
    (hevents : tx.events = turns.map (·.event))
    (hfatal : ∀ turn ∈ turns, ∀ failure ∈ turn.failures, failure.isFatal = true) (refusal : Option Failure)
    (s : Store) :
    ∃ done, done <+: tx.committed [] ∧ (tx.disrupted refusal turns s).2.store = Commit.applyAll done s := by
  rw [disrupted_eq]
  cases hrow : (Commit.transaction tx.row).failure? refusal with
  | some failure => exact ⟨[], List.nil_prefix, rfl⟩
  | none =>
    have hfits := Commit.fits_of_failure?_eq_none hrow
    rw [committed_nil_eq_filter hfits, commits, List.filter_cons_of_pos hfits]
    cases hfailed : tx.failed with
    | true => exact ⟨[.transaction tx.row], List.prefix_rfl, rfl⟩
    | false =>
      obtain ⟨done, hprefix, hstore⟩ := exists_prefix_runSessions tx.signature hfatal
        (tx.begun (s.transactions.find? tx.row.key).isNone) ((Commit.transaction tx.row).apply s)
      rw [← hevents] at hprefix
      exact ⟨.transaction tx.row :: done, (List.prefix_cons_inj _).mpr hprefix, hstore⟩

/-- The sessions of some events go through as far as the events fit, and the call ends where the next one is refused. -/
theorem outcome_runSessions_of_cut (signature : String) (done : List Event) {cut : Turn} {failure : Failure}
    (hcut : cut.refusal = some failure) (hfatal : failure.isFatal = true) (later : List Turn) (result : ProcessResult)
    (s : Store) :
    (runSessions ((done.map Turn.whole ++ cut :: later).map (·.session signature)) result).outcome
        { store := s, outlook := (done.map Turn.whole ++ cut :: later).map (·.refusal) } =
      (.error failure, { store := Commit.applyAll ((done.map (Commit.event signature)).filter (·.fits)) s,
                         outlook := later.map (·.refusal) }) := by
  induction done generalizing result s with
  | nil =>
    have hrefused : Database.transact (cut.session signature)
        { store := s, outlook := cut.refusal :: later.map (·.refusal) } =
          (.error failure, { store := s, outlook := later.map (·.refusal) }) := by
      rw [hcut]
      rfl
    simp only [List.map_nil, List.nil_append, List.map_cons, outcome_runSessions_cons, hrefused, hfatal, if_true]
    rfl
  | cons e done ih =>
    simp only [List.map_cons, List.cons_append, outcome_runSessions_cons]
    rcases (Turn.whole e).transact_session signature s ((done.map Turn.whole ++ cut :: later).map (·.refusal)) with
      ⟨hsucceeds, hrun⟩ | ⟨-, failure', hrun, hmem | ⟨rfl, hover⟩⟩
    · have hfits : (Commit.event signature e).fits = true :=
        (((Turn.whole e).succeeds_iff signature).mp hsucceeds).2.2
      rw [hrun, List.filter_cons_of_pos hfits]
      exact ih _ _
    · cases hmem
    · have hover : ¬(Commit.event signature e).fits = true := hover
      rw [hrun, List.filter_cons_of_neg hover]
      exact ih _ _

/-- Whatever the first events are, a call may be cut short just after them: it leaves their commits and no others. -/
theorem disrupted_of_cut {tx : DecodedTransaction} (hsuccess : tx.failed = false)
    (hslot : Session.fitsColumn tx.slot = true) (done : List Event) {cut : Turn} {failure : Failure}
    (hcut : cut.refusal = some failure) (hfatal : failure.isFatal = true) (later : List Turn) (s : Store) :
    tx.disrupted none (done.map Turn.whole ++ cut :: later) s =
      (.error failure,
        { store := Commit.applyAll
            ((Commit.transaction tx.row :: done.map (Commit.event tx.signature)).filter (·.fits)) s
          outlook := later.map (·.refusal) }) := by
  have hrow : (Commit.transaction tx.row).fits = true := hslot
  have hwritten : (Commit.transaction tx.row).failure? none = none := if_pos hslot
  rw [disrupted_eq, hwritten, List.filter_cons_of_pos hrow]
  simp only [hsuccess, Bool.false_eq_true, if_false]
  exact outcome_runSessions_of_cut tx.signature done hcut hfatal later _ _

/-- A call that is cut short, at the row of the transaction or at any statement of any of its events, leaves the first
of its commits, and the transaction may be processed again: what is left then is what one call leaves that is not cut
short. -/
theorem interrupted_call_is_resumed {tx : DecodedTransaction} {turns : List Turn}
    (hevents : tx.events = turns.map (·.event))
    (hfatal : ∀ turn ∈ turns, ∀ failure ∈ turn.failures, failure.isFatal = true) (refusal : Option Failure)
    (s : Store) :
    (∃ done, done <+: tx.committed [] ∧ (tx.disrupted refusal turns s).2.store = Commit.applyAll done s) ∧
      (tx.process.outcome { store := (tx.disrupted refusal turns s).2.store }).2.store =
        (tx.process.outcome { store := s }).2.store := by
  obtain ⟨done, hprefix, hstore⟩ := exists_prefix_disrupted hevents hfatal refusal s
  refine ⟨⟨done, hprefix, hstore⟩, ?_⟩
  rw [store_process, store_process, hstore]
  exact Commit.applyAll_of_prefix hprefix s

/-- The creation of a pair and a swap go through; the session of the next swap is broken off when the store can no
longer be operated, and the call ends before the last one. -/
def cutTurns : List Turn :=
  let state : PairState := ⟨100, 90, 50, 0, 0, 0, 0⟩
  [{ event := ⟨.pairCreated (.small 3) (.small 4) (.small 2) (.small 5) 0, 0⟩ },
    { event := ⟨.swap true 10 9 1 state ⟨.small 1, .small 2, 1, 0⟩, 1⟩ },
    { event := ⟨.swap true 20 19 1 state ⟨.small 1, .small 2, 2, 0⟩, 2⟩
      break? := some ⟨4, ⟨.storeOperation, "disk I/O error"⟩⟩ },
    { event := ⟨.swap true 30 29 1 state ⟨.small 1, .small 2, 3, 0⟩, 3⟩ }]

def cutShort : DecodedTransaction :=
  ⟨"cut short", 1, none, cutTurns.map (·.event), false⟩

/-- The call fails with two of the four events stored, and the next one stores all four as one call does. -/
theorem interrupted_call_is_resumed_cutShort :
    (cutShort.disrupted none cutTurns .empty).1 = .error ⟨.storeOperation, "disk I/O error"⟩ ∧
      (cutShort.disrupted none cutTurns .empty).2.store.details.size = 2 ∧
      (cutShort.process.outcome { store := (cutShort.disrupted none cutTurns .empty).2.store }).2.store =
        (cutShort.process.outcome { store := .empty }).2.store := by
  have hevents : cutShort.events = cutTurns.map (·.event) := rfl
  have hfatal : ∀ turn ∈ cutTurns, ∀ failure ∈ turn.failures, failure.isFatal = true := by decide
  exact ⟨by decide +kernel, by decide +kernel, (interrupted_call_is_resumed hevents hfatal none .empty).2⟩

end DecodedTransaction
end PairIndex
