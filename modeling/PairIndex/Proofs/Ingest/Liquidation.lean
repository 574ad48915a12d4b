import PairIndex.Proofs.Ingest.Calls

/-! The liquidated flag of a position and the rows of its liquidations. A liquidation always leaves its row, but it
sets the flag only if it is newer than all that was told of the position before it. So the two agree exactly if a
position without the flag was not liquidated at all (`Call.flag_agrees_iff`); an update that overtakes a liquidation
makes them differ (`Call.overtaken_liquidation_is_not_flagged`). -/

namespace PairIndex

/-- The number of an event that tells the balances of a position, and whether it is a liquidation. -/
structure PositionNews where
  seqNum : Int
  liquidation : Bool
  deriving DecidableEq, Repr

namespace Commit

/-- What a commit tells of the balances of a position. -/
def news? (address : String) : Commit → Option PositionNews
  | .transaction _ => none
  | .event _ e =>
    match e.body.positionChange? with
    | some (fresh, .moved seqNum _ liquidated) =>
      if fresh.positionAddress = address then some ⟨seqNum, liquidated⟩ else none
    | _ => none

/-- What commits tell of the balances of a position, in their order. -/
def newsOf (address : String) (cs : List Commit) : List PositionNews :=
  cs.filterMap (news? address)

end Commit

/-- Some liquidation was newer than all that was told before it. -/
def LiquidatedInTime (news : List PositionNews) : Prop :=
  ∃ before n after, news = before ++ ⟨n, true⟩ :: after ∧ ∀ m ∈ before, m.seqNum < n

theorem liquidatedInTime_concat {news : List PositionNews} {last : PositionNews} :
    LiquidatedInTime (news ++ [last]) ↔
      LiquidatedInTime news ∨ (last.liquidation = true ∧ ∀ m ∈ news, m.seqNum < last.seqNum) := by
  constructor
  · rintro ⟨before, n, after, heq, hnewer⟩
    rcases List.eq_nil_or_concat after with rfl | ⟨rest, final, rfl⟩
    · obtain ⟨rfl, hlast⟩ := List.append_inj' heq rfl
      cases hlast
      exact Or.inr ⟨rfl, hnewer⟩
    · have heq' : news ++ [last] = (before ++ ⟨n, true⟩ :: rest) ++ [final] := by simpa using heq
      obtain ⟨hnews, -⟩ := List.append_inj' heq' rfl
      exact Or.inl ⟨before, n, rest, hnews, hnewer⟩
  · rintro (⟨before, n, after, rfl, hnewer⟩ | ⟨hliq, hnewer⟩)
    · exact ⟨before, n, after ++ [last], by simp, hnewer⟩
    · obtain ⟨n, liquidation⟩ := last
      cases hliq
      exact ⟨news, n, [], rfl, hnewer⟩

def latestOf (row? : Option PositionRow) : Int :=
  (row?.map (·.latestSeqNum)).getD noSeqApplied

def flagOf (row? : Option PositionRow) : Bool :=
  (row?.map (·.liquidated)).getD false

theorem latestSeqNum_advance (seqNum : Int) (state : PositionAmounts) (liquidated : Bool) (row : PositionRow) :
    (row.advance seqNum state liquidated).latestSeqNum =
      if row.latestSeqNum < seqNum then seqNum else row.latestSeqNum := by
  unfold PositionRow.advance
  split <;> rfl

theorem liquidated_advance (seqNum : Int) (state : PositionAmounts) (liquidated : Bool) (row : PositionRow) :
    (row.advance seqNum state liquidated).liquidated =
      if row.latestSeqNum < seqNum then liquidated || row.liquidated else row.liquidated := by
  unfold PositionRow.advance
  split <;> rfl

theorem latestOf_eq (row? : Option PositionRow) {fresh : PositionRow} (h : fresh.latestSeqNum = noSeqApplied) :
    latestOf row? = (row?.getD fresh).latestSeqNum := by
  cases row? <;> simp [latestOf, h]

theorem flagOf_eq (row? : Option PositionRow) {fresh : PositionRow} (h : fresh.liquidated = false) :
    flagOf row? = (row?.getD fresh).liquidated := by
  cases row? <;> simp [flagOf, h]

/-- The row of a position and its liquidations follow what was told of its balances. -/
structure Follows (news : List PositionNews) (s : Store) (address : String) : Prop where
  latest : ∀ n, 0 ≤ n → (latestOf (s.positions.find? address) < n ↔ ∀ m ∈ news, m.seqNum < n)
  flag : flagOf (s.positions.find? address) = true ↔ LiquidatedInTime news
  recorded : (∃ n, (s.liquidations.find? (address, n)).isSome) ↔ ∃ m ∈ news, m.liquidation = true

namespace Follows

variable {news : List PositionNews} {s t : Store} {address : String}

theorem empty (address : String) : Follows [] .empty address where
  latest n hn := by
    constructor
    · intro _ m hm
      cases hm
    · intro _
      change noSeqApplied < n
      rw [noSeqApplied]
      omega
  flag := by
    constructor
    · intro h
      cases h
    · rintro ⟨before, n, after, heq, -⟩
      simp at heq
  recorded := by
    constructor
    · rintro ⟨n, h⟩
      cases h
    · rintro ⟨m, h, -⟩
      cases h

theorem congr (h : Follows news s address)
    (hlatest : latestOf (t.positions.find? address) = latestOf (s.positions.find? address))
    (hflag : flagOf (t.positions.find? address) = flagOf (s.positions.find? address))
    (hliquidations : ∀ n, (t.liquidations.find? (address, n)).isSome = (s.liquidations.find? (address, n)).isSome) :
    Follows news t address where
  latest := by
    rw [hlatest]
    exact h.latest
  flag := by
    rw [hflag]
    exact h.flag
  recorded := by
    simp only [hliquidations]
    exact h.recorded

/-- Balances that are newer than all before them are written, and only then is a liquidation flagged; its row is
written in any case. -/
theorem moved (last : PositionNews) (h : Follows news s address) (hnonneg : 0 ≤ last.seqNum)
    (hlatest : latestOf (t.positions.find? address) =
      if latestOf (s.positions.find? address) < last.seqNum then last.seqNum else latestOf (s.positions.find? address))
    (hflag : flagOf (t.positions.find? address) =
      if latestOf (s.positions.find? address) < last.seqNum then
        last.liquidation || flagOf (s.positions.find? address)
      else flagOf (s.positions.find? address))
    (hliquidations : ∀ n, (t.liquidations.find? (address, n)).isSome =
      ((s.liquidations.find? (address, n)).isSome || (last.liquidation && decide (last.seqNum = n)))) :
    Follows (news ++ [last]) t address := by
  have hnewer := h.latest last.seqNum hnonneg
  constructor
  case latest =>
    intro n hn
    have hold := h.latest n hn
    rw [hlatest]
    by_cases hlt : latestOf (s.positions.find? address) < last.seqNum
    · rw [if_pos hlt]
      constructor
      · intro hlast m hm
        rcases List.mem_append.mp hm with hnews | hm
        · exact Int.lt_trans (hnewer.mp hlt m hnews) hlast
        · exact List.mem_singleton.mp hm ▸ hlast
      · intro hall
        exact hall last (by simp)
    · rw [if_neg hlt]
      constructor
      · intro hn' m hm
        rcases List.mem_append.mp hm with hnews | hm
        · exact hold.mp hn' m hnews
        · exact List.mem_singleton.mp hm ▸ Int.lt_of_le_of_lt (Int.not_lt.mp hlt) hn'
      · intro hall
        exact hold.mpr fun m hm => hall m (List.mem_append_left _ hm)
  case flag =>
    rw [liquidatedInTime_concat, ← hnewer, hflag, ← h.flag]
    by_cases hlt : latestOf (s.positions.find? address) < last.seqNum
    · simp [hlt, or_comm]
    · simp [hlt]
  case recorded =>
    have hold := h.recorded
    simp only [hliquidations, Bool.or_eq_true, Bool.and_eq_true, decide_eq_true_eq, exists_or, List.mem_append,
      List.mem_singleton, or_and_right, exists_eq_left, hold]
    simp

end Follows

namespace Commit

/-- Every commit keeps the row of a position and its liquidations in step with what is told of its balances. -/
theorem follows_apply (c : Commit) {news : List PositionNews} {s : Store} {address : String}
    (h : Follows news s address) : Follows (news ++ (c.news? address).toList) (c.apply s) address := by
  cases c with
  | transaction row =>
    rw [news?, Option.toList_none, List.append_nil]
    exact h.congr rfl rfl fun _ => rfl
  | event signature e =>
    have hposition := find?_positions_event signature e s address
    have hliquidation := isSome_liquidations_event signature e s address
    rcases hchange : e.body.positionChange? with _ | ⟨fresh, change⟩
    · simp only [hchange, Bool.or_false] at hposition hliquidation
      simp only [news?, hchange, Option.toList_none, List.append_nil]
      exact h.congr (congrArg latestOf hposition) (congrArg flagOf hposition) hliquidation
    · obtain ⟨hlatest, hflag⟩ := EventBody.fresh_of_positionChange? hchange
      by_cases hsame : fresh.positionAddress = address
      · subst hsame
        have hlatest' := latestOf_eq (s.positions.find? fresh.positionAddress) hlatest
        have hflag' := flagOf_eq (s.positions.find? fresh.positionAddress) hflag
        simp only [hchange, if_true] at hposition hliquidation
        cases change with
        | created userAddress pairAddress =>
          simp only [Bool.or_false] at hliquidation
          simp only [news?, hchange, Option.toList_none, List.append_nil]
          refine h.congr ((congrArg latestOf hposition).trans ?_) ((congrArg flagOf hposition).trans ?_) hliquidation
          · exact hlatest'.symm
          · exact hflag'.symm
        | moved seqNum state liquidated =>
          simp only [news?, hchange, if_true, Option.toList_some]
          refine h.moved ⟨seqNum, liquidated⟩ (EventBody.seqNum_nonneg_of_positionChange? hchange)
            ((congrArg latestOf hposition).trans ?_) ((congrArg flagOf hposition).trans ?_) fun n => ?_
          · rw [hlatest']
            exact latestSeqNum_advance ..
          · rw [hlatest', hflag']
            exact liquidated_advance ..
          · rw [hliquidation]
            cases liquidated <;> simp
      · have hnone : (Commit.event signature e).news? address = none := by
          cases change <;> simp [news?, hchange, hsame]
        have hother : ∀ n, (((Commit.event signature e).apply s).liquidations.find? (address, n)).isSome =
            (s.liquidations.find? (address, n)).isSome := by
          intro n
          rw [hliquidation, hchange]
          cases change with
          | created => simp
          | moved seqNum state liquidated => cases liquidated <;> simp [hsame]
        simp only [hchange, if_neg hsame] at hposition
        rw [hnone, Option.toList_none, List.append_nil]
        exact h.congr (congrArg latestOf hposition) (congrArg flagOf hposition) hother

theorem follows_applyAll (cs : List Commit) {news : List PositionNews} {s : Store} {address : String}
    (h : Follows news s address) : Follows (news ++ newsOf address cs) (applyAll cs s) address := by
  induction cs generalizing news s with
  | nil => simpa [newsOf] using h
  | cons c cs ih =>
    have hc := ih (c.follows_apply h)
    rw [List.append_assoc] at hc
    rw [applyAll_cons, newsOf, List.filterMap_cons]
    cases hn : c.news? address <;> simpa [hn, newsOf] using hc

end Commit

namespace Call

/-- In every store that calls of the processor reach from the empty one, the row of a position and the rows of its
liquidations follow what the calls committed. -/
theorem follows_runAll (run : List (Call × List (Option Failure))) (address : String) :
    Follows (Commit.newsOf address (trace run)) (runAll run .empty) address := by
  rw [store_runAll]
  exact Commit.follows_applyAll _ (Follows.empty address)

/-- The flag of a position agrees with the rows of its liquidations if and only if the position was never liquidated or
one of its liquidations, when it was committed, was newer than all that had been told of the position before. -/
theorem flag_agrees_iff (run : List (Call × List (Option Failure))) (row : PositionRow)
    (hrow : row ∈ (runAll run .empty).positions.rows) :
    (row.liquidated = true ↔ ∃ l ∈ (runAll run .empty).liquidations.rows, l.positionAddress = row.positionAddress) ↔
      ((∃ m ∈ Commit.newsOf row.positionAddress (trace run), m.liquidation = true) →
        LiquidatedInTime (Commit.newsOf row.positionAddress (trace run))) := by
  have h := follows_runAll run row.positionAddress
  have hfound : (runAll run .empty).positions.find? row.positionAddress = some row := Table.mem_rows_iff.mp hrow
  have hflag : row.liquidated = true ↔ LiquidatedInTime (Commit.newsOf row.positionAddress (trace run)) := by
    rw [← h.flag, hfound]
    rfl
  have hrecorded : (∃ l ∈ (runAll run .empty).liquidations.rows, l.positionAddress = row.positionAddress) ↔
      ∃ m ∈ Commit.newsOf row.positionAddress (trace run), m.liquidation = true := by
    rw [← h.recorded]
    constructor
    · rintro ⟨l, hl, haddress⟩
      refine ⟨l.seqNum, ?_⟩
      have hkey : (row.positionAddress, l.seqNum) = l.key := by rw [LiquidationRow.key, haddress]
      rw [hkey, Table.mem_rows_iff.mp hl]
      rfl
    · rintro ⟨n, hn⟩
      obtain ⟨l, hl⟩ := Option.isSome_iff_exists.mp hn
      exact ⟨l, Table.mem_of_find? hl, congrArg Prod.fst (Table.key_of_find? hl)⟩
  rw [hflag, hrecorded]
  constructor
  · exact fun hiff => hiff.mpr
  · intro hin
    refine ⟨?_, hin⟩
    rintro ⟨before, n, after, heq, -⟩
    exact ⟨⟨n, true⟩, by simp [heq], rfl⟩

/-- An update of a position and a liquidation of it that comes in later and is older. -/
def overtakenRun : List (Call × List (Option Failure)) :=
  let metadata (seqNum : UInt64) : EventMetadata := ⟨.small 1, .small 2, seqNum, 0⟩
  let update : EventBody := .positionUpdated (.small 3) ⟨10, 20, 30, 40⟩ (metadata 5)
  let liquidation : EventBody := .positionLiquidated (.small 3) (.small 4) 1 2 3 4 5 6 ⟨0, 0, 0, 0⟩ (metadata 3)
  [(.decoded ⟨"update", 2, none, [⟨update, 0⟩], false⟩, []),
    (.decoded ⟨"liquidation", 1, none, [⟨liquidation, 0⟩], false⟩, [])]

def overtakenRow : PositionRow where
  positionAddress := (PublicKey.small 3).toText
  userAddress := some (PublicKey.small 1).toText
  pairAddress := (PublicKey.small 2).toText
  state := ⟨10, 20, 30, 40⟩
  latestSeqNum := 5

theorem flag_agrees_iff_overtaken :
    overtakenRow ∈ (runAll overtakenRun .empty).positions.rows ∧
      ((overtakenRow.liquidated = true ↔
          ∃ l ∈ (runAll overtakenRun .empty).liquidations.rows, l.positionAddress = overtakenRow.positionAddress) ↔
        ((∃ m ∈ Commit.newsOf overtakenRow.positionAddress (trace overtakenRun), m.liquidation = true) →
          LiquidatedInTime (Commit.newsOf overtakenRow.positionAddress (trace overtakenRun)))) := by
  have hrow : overtakenRow ∈ (runAll overtakenRun .empty).positions.rows := by decide +kernel
  exact ⟨hrow, flag_agrees_iff overtakenRun overtakenRow hrow⟩

/-- A position whose liquidation was overtaken by an update has a row in the liquidations and is not marked. -/
theorem overtaken_liquidation_is_not_flagged :
    ∃ row ∈ (runAll overtakenRun .empty).positions.rows,
      ¬(row.liquidated = true ↔
        ∃ l ∈ (runAll overtakenRun .empty).liquidations.rows, l.positionAddress = row.positionAddress) := by
  decide +kernel

end Call
end PairIndex
