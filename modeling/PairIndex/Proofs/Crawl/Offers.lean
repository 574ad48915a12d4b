import PairIndex.Proofs.Crawl.Answers

/-! What a watermark shows after any statements on watermarks. Moves are offered to it one after another, and it
stands at the highest slot offered so far, names the last signature that was offered with that slot, and begins with
the first offer (`WatermarkRow.Tells`). Opening it again, marking it, and whatever is said of other addresses leave
this as it is (`watermark_tells_offers`). -/

namespace PairIndex

/-! ## Statements -/

/-- A move that a watermark is offered. -/
structure Offer where
  signature : String
  slot : Int
  /-- The oldest signature of what was crawled for it. -/
  first : Option String := none
  deriving DecidableEq, Repr

inductive WatermarkAction where
  /-- Opens a watermark, unless the address has one. -/
  | create (description : String)
  | advance (offer : Offer)
  | setStatus (status : WatchStatus) (failureLog : Option String)
  | markFailed (failureLog : String)

/-- A statement on the watermark of an address. -/
structure WatermarkCall where
  account : String
  action : WatermarkAction

namespace WatermarkCall

/-- What a statement does, and whether the watermark moved if it was to move. -/
def session (call : WatermarkCall) : Session (Option Bool) :=
  match call.action with
  | .create description => do
    let _ ← Session.openWatermark call.account description
    return none
  | .advance offer => do
    let moved ← Session.advanceWatermark call.account offer.signature offer.slot offer.first
    return some moved
  | .setStatus status failureLog => do
    Session.setWatchStatus call.account status failureLog
    return none
  | .markFailed failureLog => do
    Session.markFailed call.account failureLog
    return none

/-- The answer to a statement and the store after it. A statement that fails leaves the store as it is. -/
def commit (call : WatermarkCall) (s : Store) : Except Failure (Option Bool) × Store :=
  match call.session.run s with
  | .ok (answer, s') => (.ok answer, s')
  | .error failure => (.error failure, s)

/-- The store after statements that are made one after another. -/
def commitAll (calls : List WatermarkCall) (s : Store) : Store :=
  calls.foldl (fun s call => (call.commit s).2) s

/-- The move that a statement offers to the watermark of an address. -/
def offer? (account : String) (call : WatermarkCall) : Option Offer :=
  match call.action with
  | .advance offer => if call.account = account then some offer else none
  | _ => none

/-- Slots are not negative and fit a column. -/
def IsSlot (n : Int) : Prop :=
  0 ≤ n ∧ n < Number.twoTo 63

/-- The moves that statements offer to the watermark of an address, in order. -/
def offers (account : String) (calls : List WatermarkCall) : List Offer :=
  calls.filterMap (·.offer? account)

end WatermarkCall

/-! ## Watermarks -/

/-- A watermark after an offer. -/
def WatermarkRow.offered (row : WatermarkRow) (o : Offer) : WatermarkRow :=
  (row.moveTo o.signature o.slot).beginAt (firstOf o.signature o.first)

/-- A watermark that tells of offers: the highest slot of them, the last signature with that slot, and where the first
one began. -/
structure WatermarkRow.Tells (row : WatermarkRow) (offers : List Offer) : Prop where
  slot : (0 :: offers.map (·.slot)).max? = some row.checkedUpToSlot
  latest : row.latestSignature =
    (offers.filter fun o => decide (o.slot = row.checkedUpToSlot)).getLast?.map (·.signature)
  first : row.firstSignature = offers.head?.map fun o => firstOf o.signature o.first

namespace WatermarkRow

variable {row row' : WatermarkRow} {offers : List Offer} {o : Offer}

theorem Tells.le_iff (h : row.Tells offers) {n : Int} (hn : 0 ≤ n) :
    row.checkedUpToSlot ≤ n ↔ ∀ earlier ∈ offers, earlier.slot ≤ n := by
  rw [List.max?_le_iff h.slot]
  simp [hn]

theorem Tells.congr (h : row.Tells offers) (hslot : row'.checkedUpToSlot = row.checkedUpToSlot)
    (hlatest : row'.latestSignature = row.latestSignature) (hfirst : row'.firstSignature = row.firstSignature) :
    row'.Tells offers := by
  refine ⟨?_, ?_, ?_⟩
  · rw [hslot]
    exact h.slot
  · rw [hlatest, hslot]
    exact h.latest
  · rw [hfirst]
    exact h.first

/-- An offer moves a watermark unless its slot is lower than the highest one. -/
theorem Tells.offered (h : row.Tells offers) : (row.offered o).Tells (offers ++ [o]) := by
  have hchecked : (row.offered o).checkedUpToSlot = max row.checkedUpToSlot o.slot := by
    rw [WatermarkRow.offered, beginAt_eq, moveTo_eq]
  refine ⟨?_, ?_, ?_⟩
  · have hhighest := h.slot
    rw [List.max?_cons', Option.some_inj] at hhighest
    rw [hchecked, List.map_append, List.max?_cons', List.foldl_append, hhighest]
    rfl
  · -- If the offer is taken no earlier one is of a higher slot, and it is the last of its own.
    rw [hchecked, List.filter_append, WatermarkRow.offered, beginAt_eq, moveTo_eq]
    dsimp only
    by_cases hle : row.checkedUpToSlot ≤ o.slot
    · have htaken : [o].filter (fun earlier => decide (earlier.slot = o.slot)) = [o] := by simp
      rw [if_pos hle, Int.max_eq_right hle, htaken, List.getLast?_concat, Option.map_some]
    · have hlt : o.slot < row.checkedUpToSlot := by omega
      have hleft : [o].filter (fun earlier => decide (earlier.slot = row.checkedUpToSlot)) = [] := by
        simp [Int.ne_of_lt hlt]
      rw [if_neg hle, Int.max_eq_left (Int.le_of_lt hlt), hleft, List.append_nil]
      exact h.latest
  · rw [WatermarkRow.offered, beginAt_eq, moveTo_eq]
    simp only [h.first]
    cases offers <;> rfl

end WatermarkRow

/-! ## Runs -/

/-- Moving a watermark is answered by whether it moved. -/
theorem Session.moved_of_advanceWatermark {account signature : String} {slot : Int} {first : Option String}
    {s s' : Store} {moved : Bool} (h : (advanceWatermark account signature slot first).run s = .ok (moved, s')) :
    moved = (s.watermarks.find? account).any fun row => decide (row.checkedUpToSlot ≤ slot) := by
  by_cases hfits : fitsColumn slot = true
  · unfold advanceWatermark at h
    rw [checkColumn_of_fits hfits, pure_bind] at h
    cases h
    rfl
  · rw [run_advanceWatermark_of_not_fits account signature first s hfits] at h
    cases h

namespace WatermarkCall

variable {account : String} {s : Store} {row : WatermarkRow}

/-- What a statement makes of the watermark of an address. -/
def change (account : String) (call : WatermarkCall) (row : WatermarkRow) : WatermarkRow :=
  if call.account = account then
    match call.action with
    | .create _ => row
    | .advance o => row.offered o
    | .setStatus status failureLog => row.withStatus status failureLog
    | .markFailed failureLog => row.withStatus .failed (some failureLog)
  else row

theorem change_of_other {call : WatermarkCall} (h : call.account ≠ account) : call.change account row = row :=
  if_neg h

theorem commit_of_run {call : WatermarkCall} {answer : Option Bool} {s' : Store}
    (h : call.session.run s = .ok (answer, s')) : call.commit s = (.ok answer, s') := by
  rw [commit, h]

theorem fitsColumn_of_isSlot {n : Int} (h : IsSlot n) : Session.fitsColumn n = true := by
  obtain ⟨hnonneg, hlt⟩ := h
  unfold Session.fitsColumn
  exact decide_eq_true ⟨by omega, hlt⟩

/-- A statement changes the watermark of an address on its own, whatever else is stored. -/
theorem find?_commit (call : WatermarkCall) (hrow : s.watermarks.find? account = some row)
    (hslot : ∀ o ∈ call.offer? account, IsSlot o.slot) :
    (call.commit s).2.watermarks.find? account = some (call.change account row) := by
  obtain ⟨other, action⟩ := call
  have hmarked : ∀ status failureLog, ((⟨other, .setStatus status failureLog⟩ : WatermarkCall).commit s).2.watermarks.find?
      account = some (change account ⟨other, .setStatus status failureLog⟩ row) := by
    intro status failureLog
    obtain ⟨s', hrun, hfind⟩ := Session.find?_setWatchStatus other status failureLog s
    have hcommit : (⟨other, .setStatus status failureLog⟩ : WatermarkCall).session.run s = .ok (none, s') := by
      rw [session, StateT.run_bind, hrun]
      rfl
    rw [commit_of_run hcommit, hfind, hrow, change]
    split <;> rfl
  cases action with
  | create description =>
    change (s.watermarks.insertNew _).1.find? account = some _
    rw [Table.find?_insertNew, hrow, change]
    split <;> split <;> rfl
  | advance o =>
    by_cases hfits : Session.fitsColumn o.slot = true
    · obtain ⟨moved, s', hrun, hfind, hother⟩ := Session.find?_advanceWatermark other o.signature o.first s hfits
      have hcommit : (⟨other, .advance o⟩ : WatermarkCall).session.run s = .ok (some moved, s') := by
        rw [session, StateT.run_bind, hrun]
        rfl
      rw [commit_of_run hcommit]
      by_cases hown : other = account
      · subst hown
        rw [hfind, hrow, change, if_pos rfl]
        rfl
      · rw [hother account (Ne.symm hown), hrow, change_of_other hown]
    · -- A slot that fits no column is offered to another address, and nothing is written.
      have hown : other ≠ account := by
        rintro rfl
        exact hfits (fitsColumn_of_isSlot (hslot o (by simp [offer?])))
      have hcommit : (⟨other, .advance o⟩ : WatermarkCall).commit s = (.error Session.columnOverflow, s) := by
        rw [commit, session, StateT.run_bind, Session.run_advanceWatermark_of_not_fits _ _ _ _ hfits]
        rfl
      rw [hcommit, hrow, change_of_other hown]
  | setStatus status failureLog => exact hmarked status failureLog
  | markFailed failureLog => exact hmarked .failed (some failureLog)

theorem description_change (call : WatermarkCall) (row : WatermarkRow) :
    (call.change account row).description = row.description := by
  unfold change
  split
  · cases call.action with
    | create description => rfl
    | advance o => simp only [WatermarkRow.offered, WatermarkRow.beginAt_eq, WatermarkRow.moveTo_eq]
    | setStatus status failureLog => rfl
    | markFailed failureLog => rfl
  · rfl

/-- A watermark tells of what it is offered, and of nothing else that is said of it. -/
theorem tells_change (call : WatermarkCall) {told : List Offer} (h : row.Tells told) :
    (call.change account row).Tells (told ++ (call.offer? account).toList) := by
  unfold change offer?
  by_cases hown : call.account = account
  · simp only [if_pos hown]
    cases call.action with
    | advance o => exact h.offered
    | create description => exact (List.append_nil told).symm ▸ h
    | setStatus status failureLog => exact (List.append_nil told).symm ▸ h.congr rfl rfl rfl
    | markFailed failureLog => exact (List.append_nil told).symm ▸ h.congr rfl rfl rfl
  · simp only [if_neg hown]
    cases call.action <;> simpa using h

theorem offers_cons (call : WatermarkCall) (calls : List WatermarkCall) :
    offers account (call :: calls) = (call.offer? account).toList ++ offers account calls := by
  unfold offers
  cases hoffer : call.offer? account <;> simp [hoffer]

/-- What statements make of a watermark that tells of some offers: it tells of theirs as well. -/
theorem commitAll_tells (calls : List WatermarkCall) {told : List Offer} (hrow : s.watermarks.find? account = some row)
    (htold : row.Tells told) (hslots : ∀ o ∈ offers account calls, IsSlot o.slot) :
    ∃ row', (commitAll calls s).watermarks.find? account = some row' ∧ row'.Tells (told ++ offers account calls) ∧
      row'.description = row.description := by
  induction calls generalizing s row told with
  | nil => exact ⟨row, hrow, by simpa [offers] using htold, rfl⟩
  | cons call rest ih =>
    rw [offers_cons] at hslots ⊢
    have hcommitted := find?_commit call hrow fun o ho => hslots o (by simp [Option.mem_def.mp ho])
    obtain ⟨row', hrow', htells, hdescription⟩ :=
      ih hcommitted (tells_change call htold) fun o ho => hslots o (List.mem_append_right _ ho)
    refine ⟨row', hrow', ?_, hdescription.trans (description_change call row)⟩
    rwa [List.append_assoc] at htells

end WatermarkCall

open WatermarkCall

/-- Whatever is said of watermarks after that of an address was opened, it stands at the highest slot that it was offered,
names the last signature offered with that slot, begins with the first offer and keeps its description. A further offer
moves it if and only if no slot that was offered before is higher. -/
theorem watermark_tells_offers (account description : String) (calls : List WatermarkCall) {s : Store}
    (hnew : s.watermarks.find? account = none) (hslots : ∀ o ∈ offers account calls, IsSlot o.slot) :
    let later := commitAll (⟨account, .create description⟩ :: calls) s
    (∃ row, later.watermarks.find? account = some row ∧ row.Tells (offers account calls) ∧
        row.description = description) ∧
      ∀ o : Offer, IsSlot o.slot → ((⟨account, .advance o⟩ : WatermarkCall).commit later).1 =
        .ok (some (decide (∀ earlier ∈ offers account calls, earlier.slot ≤ o.slot))) := by
  intro later
  let fresh : WatermarkRow := { account, description }
  have hopened : ((⟨account, .create description⟩ : WatermarkCall).commit s).2.watermarks.find? account = some fresh := by
    change (s.watermarks.insertNew fresh).1.find? account = some fresh
    rw [Table.find?_insertNew, hnew]
    exact if_pos rfl
  have hfresh : fresh.Tells [] := ⟨rfl, rfl, rfl⟩
  obtain ⟨row, hrow, htells, hdescription⟩ := commitAll_tells calls hopened hfresh hslots
  change later.watermarks.find? account = some row at hrow
  refine ⟨⟨row, hrow, htells, hdescription⟩, fun o ho => ?_⟩
  obtain ⟨moved, s', hrun, -⟩ :=
    Session.find?_advanceWatermark account o.signature o.first later (fitsColumn_of_isSlot ho)
  have hmoved := Session.moved_of_advanceWatermark hrun
  rw [hrow, Option.any_some, decide_eq_decide.mpr (htells.le_iff ho.1)] at hmoved
  have hcommit : (⟨account, .advance o⟩ : WatermarkCall).session.run later = .ok (some moved, s') := by
    rw [session, StateT.run_bind, hrun]
    rfl
  rw [commit_of_run hcommit, hmoved]
  rfl

/-- Two moves within a slot, one that comes too late, marks, and another address that is offered a slot that fits no
column. -/
def poolCalls : List WatermarkCall :=
  [⟨"pool", .advance { signature := "swap", slot := 7, first := some "" }⟩, ⟨"farm", .create "farm"⟩,
    ⟨"pool", .markFailed "store down"⟩, ⟨"farm", .advance { signature := "stake", slot := Number.twoTo 63 }⟩,
    ⟨"pool", .advance { signature := "create", slot := 3, first := some "create" }⟩, ⟨"pool", .create "again"⟩,
    ⟨"pool", .advance { signature := "repay", slot := 7, first := some "mint" }⟩, ⟨"pool", .setStatus .active none⟩]

theorem watermark_tells_offers_pool :
    Store.empty.watermarks.find? "pool" = none ∧ (∀ o ∈ offers "pool" poolCalls, IsSlot o.slot) ∧
      ∃ row, (commitAll (⟨"pool", .create "watched"⟩ :: poolCalls) .empty).watermarks.find? "pool" = some row ∧
        row.checkedUpToSlot = 7 ∧ row.latestSignature = some "repay" ∧ row.firstSignature = some "swap" ∧
        row.description = "watched" ∧
        ((⟨"pool", .advance { signature := "late", slot := 6 }⟩ : WatermarkCall).commit
          (commitAll (⟨"pool", .create "watched"⟩ :: poolCalls) .empty)).1 = .ok (some false) := by
  have hslots : ∀ o ∈ offers "pool" poolCalls, IsSlot o.slot := by
    have hoffers : offers "pool" poolCalls = [{ signature := "swap", slot := 7, first := some "" },
        { signature := "create", slot := 3, first := some "create" },
        { signature := "repay", slot := 7, first := some "mint" }] := by
      decide +kernel
    rw [hoffers]
    unfold IsSlot
    decide +kernel
  have hnew : Store.empty.watermarks.find? "pool" = none := rfl
  obtain ⟨⟨row, hrow, htells, hdescription⟩, hnext⟩ := watermark_tells_offers "pool" "watched" poolCalls hnew hslots
  have hhighest : (0 :: (offers "pool" poolCalls).map (·.slot)).max? = some 7 := by decide +kernel
  have hchecked : row.checkedUpToSlot = 7 := (Option.some.inj (hhighest.symm.trans htells.slot)).symm
  have hlatest := htells.latest
  rw [hchecked] at hlatest
  refine ⟨hnew, hslots, row, hrow, hchecked, hlatest.trans ?_, htells.first.trans ?_, hdescription, ?_⟩
  · decide +kernel
  · decide +kernel
  · rw [hnext _ (by unfold IsSlot; decide +kernel)]
    decide +kernel

end PairIndex
