import PairIndex.Proofs.Ingest.Liquidation
import PairIndex.Proofs.Ingest.Replay
import PairIndex.Proofs.Store.Newest

/-! The row of a position, column by column. What commits make of the row is told by what they tell of that position
(`Commit.find?_positions_applyAll`): its balances are the newest that were told (`shown_rowAfterAll`), its owner is that
of its last creation or else of the first event about it (`owner_rowAfterAll`), and it is marked by a liquidation that is
newer than all that was told before (`flagOf_rowAfterAll`). -/

namespace PairIndex

/-! ## What events tell of a position -/

/-- What an event tells of a position: its creation, or its balances, which are those after a liquidation or others. Each
tells the pair; a liquidation does not tell the owner. -/
inductive PositionTelling where
  | created (user pair : String)
  | moved (owner : Option String) (pair : String) (balances : Numbered PositionAmounts) (liquidated : Bool)

namespace PositionTelling

/-- The owner, if it is told, and the pair. -/
def owner : PositionTelling → Option String × String
  | .created user pair => (some user, pair)
  | .moved owner pair _ _ => (owner, pair)

/-- The owner and the pair that a creation tells. -/
def creation? : PositionTelling → Option (Option String × String)
  | .created user pair => some (some user, pair)
  | .moved .. => none

def balances? : PositionTelling → Option (Numbered PositionAmounts)
  | .created .. => none
  | .moved _ _ balances _ => some balances

def news? : PositionTelling → Option PositionNews
  | .created .. => none
  | .moved _ _ balances liquidated => some ⟨balances.seqNum, liquidated⟩

/-- The row that is added if the position has none. -/
def fresh (address : String) (told : PositionTelling) : PositionRow :=
  { positionAddress := address, userAddress := told.owner.1, pairAddress := told.owner.2 }

def change : PositionTelling → PositionChange
  | .created user pair => .created user pair
  | .moved _ _ balances liquidated => .moved balances.seqNum balances.value liquidated

/-- The row of a position after something was told of it. -/
def rowAfter (address : String) (old : Option PositionRow) (told : PositionTelling) : Option PositionRow :=
  some (told.change.apply (old.getD (told.fresh address)))

/-- The row of a position after all that was told of it. -/
def rowAfterAll (address : String) (old : Option PositionRow) (told : List PositionTelling) : Option PositionRow :=
  told.foldl (rowAfter address) old

@[simp]
theorem rowAfterAll_nil (address : String) (old : Option PositionRow) : rowAfterAll address old [] = old := rfl

@[simp]
theorem rowAfterAll_cons (address : String) (old : Option PositionRow) (first : PositionTelling)
    (rest : List PositionTelling) :
    rowAfterAll address old (first :: rest) = rowAfterAll address (rowAfter address old first) rest := rfl

theorem rowAfterAll_append (address : String) (old : Option PositionRow) (told later : List PositionTelling) :
    rowAfterAll address old (told ++ later) = rowAfterAll address (rowAfterAll address old told) later :=
  List.foldl_append

end PositionTelling

/-- The position that an event is about, and what it tells of it. -/
def EventBody.positionTelling? : EventBody → Option (String × PositionTelling)
  | .positionCreated user pair position _ => some (position.toText, .created user.toText pair.toText)
  | body => body.positionMove?.map fun move =>
    (move.position.toText,
      .moved (move.owner.map (·.toText)) move.metadata.pair.toText ⟨move.metadata.seqNum.toNat, move.state.amounts⟩
        move.liquidated)

theorem EventBody.positionChange?_eq (body : EventBody) :
    body.positionChange? =
      body.positionTelling?.map fun (address, told) => (told.fresh address, told.change) := by
  cases body <;> rfl

namespace Commit

/-- What a commit tells of a position. -/
def tellingOf? (address : String) (c : Commit) : Option PositionTelling :=
  c.event?.bind fun (_, body) =>
    body.positionTelling?.bind fun (position, told) => if position = address then some told else none

/-- What commits tell of a position, in their order. -/
def tellingsOf (address : String) (cs : List Commit) : List PositionTelling :=
  cs.filterMap (tellingOf? address)

theorem tellingsOf_append (address : String) (cs ds : List Commit) :
    tellingsOf address (cs ++ ds) = tellingsOf address cs ++ tellingsOf address ds :=
  List.filterMap_append

theorem mem_tellingsOf {address : String} {told : PositionTelling} {cs : List Commit} :
    told ∈ tellingsOf address cs ↔
      ∃ signature e, .event signature e ∈ cs ∧ e.body.positionTelling? = some (address, told) := by
  rw [tellingsOf, List.mem_filterMap]
  constructor
  · rintro ⟨c, hc, htold⟩
    cases c with
    | transaction => cases htold
    | event signature e =>
      simp only [tellingOf?, event?, Option.bind_some] at htold
      obtain ⟨⟨position, told'⟩, htelling, hsame⟩ := Option.bind_eq_some_iff.mp htold
      rw [Option.ite_none_right_eq_some, Option.some.injEq] at hsame
      obtain ⟨rfl, rfl⟩ := hsame
      exact ⟨signature, e, hc, htelling⟩
  · rintro ⟨signature, e, hc, htelling⟩
    exact ⟨_, hc, by simp [tellingOf?, event?, htelling]⟩

theorem find?_positions_eq_rowAfterAll (c : Commit) (s : Store) (address : String) :
    (c.apply s).positions.find? address =
      PositionTelling.rowAfterAll address (s.positions.find? address) (c.tellingOf? address).toList := by
  rw [find?_positions_apply, positionChange?, tellingOf?]
  cases c.event? with
  | none => rfl
  | some told =>
    obtain ⟨signature, body⟩ := told
    simp only [Option.bind_some, EventBody.positionChange?_eq]
    rcases body.positionTelling? with _ | ⟨position, told⟩
    · rfl
    · by_cases hsame : position = address
      · subst hsame
        simp [PositionTelling.fresh, PositionTelling.rowAfterAll, PositionTelling.rowAfter]
      · simp [PositionTelling.fresh, PositionTelling.rowAfterAll, hsame]

theorem find?_positions_applyAll (cs : List Commit) (s : Store) (address : String) :
    (applyAll cs s).positions.find? address =
      PositionTelling.rowAfterAll address (s.positions.find? address) (tellingsOf address cs) := by
  induction cs generalizing s with
  | nil => rfl
  | cons c cs ih =>
    rw [applyAll_cons, ih, find?_positions_eq_rowAfterAll, tellingsOf, tellingsOf]
    cases htold : c.tellingOf? address with
    | none => simp [htold, PositionTelling.rowAfterAll]
    | some told => simp [htold, PositionTelling.rowAfterAll]

end Commit

/-! ## Columns -/

/-- The balances that a row shows, with their number. -/
def PositionRow.balances (row : PositionRow) : Numbered PositionAmounts :=
  ⟨row.latestSeqNum, row.state⟩

/-- The owner of a position, if it is known, and its pair. -/
def PositionRow.owner (row : PositionRow) : Option String × String :=
  (row.userAddress, row.pairAddress)

/-- A row is told by its address and its columns. -/
theorem PositionRow.ext_columns {row other : PositionRow} (haddress : row.positionAddress = other.positionAddress)
    (howner : row.owner = other.owner) (hbalances : row.balances = other.balances)
    (hmark : row.liquidated = other.liquidated) : row = other := by
  cases row
  cases other
  cases haddress
  cases howner
  cases hbalances
  cases hmark
  rfl

/-- What is shown of a position of which no balances were told. -/
def Numbered.noBalances : Numbered PositionAmounts :=
  ⟨noSeqApplied, .zero⟩

namespace PositionTelling

variable (address : String)

/-- The balances that a row shows, if there is one. -/
def shown (row? : Option PositionRow) : Numbered PositionAmounts :=
  (row?.map (·.balances)).getD .noBalances

theorem balances_advance (seqNum : Int) (state : PositionAmounts) (liquidated : Bool) (row : PositionRow) :
    (row.advance seqNum state liquidated).balances = row.balances.newer ⟨seqNum, state⟩ := by
  by_cases hnewer : row.latestSeqNum < seqNum
  · rw [PositionRow.advance, if_pos hnewer]
    exact (Numbered.newer_of_lt hnewer).symm
  · rw [PositionRow.advance, if_neg hnewer]
    exact (Numbered.newer_of_le (Int.not_lt.mp hnewer)).symm

theorem shown_rowAfter (old : Option PositionRow) (told : PositionTelling) :
    shown (rowAfter address old told) = (shown old).newestOf told.balances?.toList := by
  have hold : (old.getD (told.fresh address)).balances = shown old := by
    cases old <;> rfl
  rw [← hold]
  cases told with
  | created => rfl
  | moved owner pair balances liquidated => exact balances_advance ..

/-- The balances that are shown are the newest that were told. -/
theorem shown_rowAfterAll (old : Option PositionRow) (told : List PositionTelling) :
    shown (rowAfterAll address old told) = (shown old).newestOf (told.filterMap balances?) := by
  induction told generalizing old with
  | nil => rfl
  | cons first rest ih =>
    rw [rowAfterAll_cons, ih, shown_rowAfter, ← Numbered.newestOf_append, List.filterMap_cons]
    cases first.balances? <;> rfl

theorem isSome_rowAfterAll (old : Option PositionRow) (told : List PositionTelling) :
    (rowAfterAll address old told).isSome = (old.isSome || !told.isEmpty) := by
  induction told generalizing old with
  | nil => simp
  | cons first rest ih =>
    rw [rowAfterAll_cons, ih]
    simp [rowAfter]

theorem owner_advance (seqNum : Int) (state : PositionAmounts) (liquidated : Bool) (row : PositionRow) :
    (row.advance seqNum state liquidated).owner = row.owner := by
  unfold PositionRow.advance
  split <;> rfl

theorem owner_rowAfter (old : Option PositionRow) (told : PositionTelling) :
    (rowAfter address old told).map (·.owner) =
      some (told.creation?.getD ((old.map (·.owner)).getD told.owner)) := by
  have hold : (old.getD (told.fresh address)).owner = (old.map (·.owner)).getD told.owner := by
    cases old <;> rfl
  cases told with
  | created user pair => rfl
  | moved owner pair balances liquidated => exact congrArg some ((owner_advance ..).trans hold)

/-- The owner is that of the last creation; without one it is the owner that was known, or else the one that is told
first. -/
theorem owner_rowAfterAll (old : Option PositionRow) (told : List PositionTelling) :
    (rowAfterAll address old told).map (·.owner) =
      (told.filterMap creation?).getLast?.or ((old.map (·.owner)).or (told.head?.map owner)) := by
  induction told generalizing old with
  | nil => simp
  | cons first rest ih =>
    rw [rowAfterAll_cons, ih, owner_rowAfter, List.filterMap_cons]
    cases first with
    | created user pair => simp [creation?, List.getLast?_cons, Option.or_some]
    | moved owner pair balances liquidated =>
      simp only [creation?, List.head?_cons, Option.map_some, Option.getD_none, Option.some_or]
      cases old <;> rfl

end PositionTelling

/-- Some liquidation is above a number and newer than all that was told before it. -/
def LiquidatedAbove (seqNum : Int) (news : List PositionNews) : Prop :=
  ∃ before n after, news = before ++ ⟨n, true⟩ :: after ∧ seqNum < n ∧ ∀ m ∈ before, m.seqNum < n

theorem not_liquidatedAbove_nil (seqNum : Int) : ¬LiquidatedAbove seqNum [] := by
  rintro ⟨before, n, after, heq, -⟩
  simp at heq

theorem liquidatedAbove_cons {seqNum : Int} {first : PositionNews} {rest : List PositionNews} :
    LiquidatedAbove seqNum (first :: rest) ↔
      (first.liquidation = true ∧ seqNum < first.seqNum) ∨ LiquidatedAbove (max seqNum first.seqNum) rest := by
  constructor
  · rintro ⟨before, n, after, heq, habove, hbefore⟩
    cases before with
    | nil =>
      cases heq
      exact Or.inl ⟨rfl, habove⟩
    | cons head before =>
      cases heq
      refine Or.inr ⟨before, n, after, rfl, ?_, fun m hm => hbefore m (List.mem_cons_of_mem _ hm)⟩
      exact Int.max_lt.mpr ⟨habove, hbefore _ List.mem_cons_self⟩
  · rintro (⟨hliquidation, habove⟩ | ⟨before, n, after, rfl, habove, hbefore⟩)
    · obtain ⟨n, liquidation⟩ := first
      cases hliquidation
      exact ⟨[], n, rest, rfl, habove, nofun⟩
    · rw [Int.max_lt] at habove
      exact ⟨first :: before, n, after, rfl, habove.1, List.forall_mem_cons.mpr ⟨habove.2, hbefore⟩⟩

/-- What is above a number is above every lower one. -/
theorem LiquidatedAbove.of_le {seqNum lower : Int} {news : List PositionNews} (h : LiquidatedAbove seqNum news)
    (hle : lower ≤ seqNum) : LiquidatedAbove lower news := by
  obtain ⟨before, n, after, heq, habove, hbefore⟩ := h
  exact ⟨before, n, after, heq, Int.lt_of_le_of_lt hle habove, hbefore⟩

namespace PositionTelling

theorem eq_nil_of_rowAfterAll {address : String} {old : Option PositionRow} {told : List PositionTelling}
    (h : rowAfterAll address old told = none) : told = [] := by
  have hsome := isSome_rowAfterAll address old told
  rw [h, Option.isSome_none, eq_comm, Bool.or_eq_false_iff, Bool.not_eq_false', List.isEmpty_iff] at hsome
  exact hsome.2

theorem positionAddress_rowAfterAll {address : String} {old : Option PositionRow} {told : List PositionTelling}
    (hold : ∀ row ∈ old, row.positionAddress = address) :
    ∀ row ∈ rowAfterAll address old told, row.positionAddress = address := by
  induction told generalizing old with
  | nil => exact hold
  | cons first rest ih =>
    refine ih fun row hrow => ?_
    cases hrow
    refine (first.change.key_apply _).trans ?_
    cases old with
    | none => rfl
    | some before => exact hold before rfl

theorem shown_moved (address : String) (old : Option PositionRow) (owner : Option String) (pair : String)
    (balances : Numbered PositionAmounts) (liquidated : Bool) :
    (shown (rowAfter address old (.moved owner pair balances liquidated))).seqNum =
      max (shown old).seqNum balances.seqNum := by
  rw [shown_rowAfter]
  exact Numbered.seqNum_newer ..

theorem flagOf_rowAfter (address : String) (old : Option PositionRow) (told : PositionTelling) :
    flagOf (rowAfter address old told) = true ↔
      flagOf old = true ∨ ∃ m ∈ told.news?, m.liquidation = true ∧ (shown old).seqNum < m.seqNum := by
  have hflag : flagOf old = (old.getD (told.fresh address)).liquidated := flagOf_eq old rfl
  have hshown : (shown old).seqNum = (old.getD (told.fresh address)).latestSeqNum := by
    cases old <;> rfl
  rw [hflag, hshown]
  cases told with
  | created user pair =>
    simp only [news?, Option.not_mem_none, false_and, exists_false, or_false]
    exact Iff.rfl
  | moved owner pair balances liquidated =>
    rw [rowAfter]
    generalize old.getD (fresh address (.moved owner pair balances liquidated)) = row
    have hadvance : flagOf (some (row.advance balances.seqNum balances.value liquidated)) = _ :=
      liquidated_advance ..
    refine (iff_of_eq (congrArg (· = true) hadvance)).trans ?_
    by_cases hnewer : row.latestSeqNum < balances.seqNum
    · simp [news?, hnewer, or_comm]
    · simp [news?, hnewer]

/-- A position is marked if it was marked before, or a liquidation is newer than all that was told before it. -/
theorem flagOf_rowAfterAll (address : String) (old : Option PositionRow) (told : List PositionTelling) :
    flagOf (rowAfterAll address old told) = true ↔
      flagOf old = true ∨ LiquidatedAbove (shown old).seqNum (told.filterMap news?) := by
  induction told generalizing old with
  | nil => simp [not_liquidatedAbove_nil]
  | cons first rest ih =>
    rw [rowAfterAll_cons, ih, flagOf_rowAfter, List.filterMap_cons, or_assoc]
    cases first with
    | created user pair => simp [news?, shown_rowAfter, balances?]
    | moved owner pair balances liquidated => simp [news?, shown_moved, liquidatedAbove_cons]

end PositionTelling

/-! ## What does not depend on order -/

/-- The pair of a position and its balances: all that a row tells but the owner and the mark. -/
def PositionRow.standing (row : PositionRow) : String × Numbered PositionAmounts :=
  (row.pairAddress, row.balances)

namespace PositionTelling

/-- Two events about one position tell the same pair, and the same balances if they tell some under one number. -/
def Concurs (told told' : PositionTelling) : Prop :=
  told.owner.2 = told'.owner.2 ∧
    ∀ a ∈ told.balances?, ∀ b ∈ told'.balances?, a.seqNum = b.seqNum → a.value = b.value

instance (told told' : PositionTelling) : Decidable (told.Concurs told') :=
  inferInstanceAs (Decidable (told.owner.2 = told'.owner.2 ∧
    ∀ a ∈ told.balances?, ∀ b ∈ told'.balances?, a.seqNum = b.seqNum → a.value = b.value))

/-- The pair of a position and its balances after something was told of it. -/
def standingAfter (old : Option (String × Numbered PositionAmounts)) (told : PositionTelling) :
    Option (String × Numbered PositionAmounts) :=
  some (if told.creation?.isSome then told.owner.2 else (old.map Prod.fst).getD told.owner.2,
    Numbered.newestOf ((old.map Prod.snd).getD .noBalances) told.balances?.toList)

theorem standing_rowAfter (address : String) (old : Option PositionRow) (told : PositionTelling) :
    (rowAfter address old told).map (·.standing) = standingAfter (old.map (·.standing)) told := by
  have howner := owner_rowAfter address old told
  have hshown := shown_rowAfter address old told
  have hold : ((old.map PositionRow.standing).map Prod.snd).getD .noBalances = shown old := by
    cases old <;> rfl
  rw [rowAfter, Option.map_some, Option.some.injEq] at howner
  rw [rowAfter, standingAfter, hold, ← hshown]
  refine congrArg some (Prod.ext ?_ rfl)
  refine (congrArg Prod.snd howner).trans ?_
  cases told <;> cases old <;> rfl

theorem standing_rowAfterAll (address : String) (old : Option PositionRow) (told : List PositionTelling) :
    (rowAfterAll address old told).map (·.standing) = told.foldl standingAfter (old.map (·.standing)) := by
  induction told generalizing old with
  | nil => rfl
  | cons first rest ih => rw [rowAfterAll_cons, ih, standing_rowAfter, List.foldl_cons]

theorem standingAfter_comm {told told' : PositionTelling} (h : told.Concurs told')
    (old : Option (String × Numbered PositionAmounts)) :
    standingAfter (standingAfter old told) told' = standingAfter (standingAfter old told') told := by
  obtain ⟨hpair, hbalances⟩ := h
  simp only [standingAfter, Option.map_some, Option.getD_some, hpair]
  refine congrArg some (Prod.ext ?_ ?_)
  · simp only
    cases told'.creation? <;> cases told.creation? <;> rfl
  · simp only
    generalize (old.map Prod.snd).getD .noBalances = kept
    cases hfirst : told.balances? with
    | none => rfl
    | some a =>
      cases hsecond : told'.balances? with
      | none => rfl
      | some b =>
        refine Numbered.newer_swap fun hnumber => ?_
        have hvalue := hbalances a hfirst b hsecond hnumber
        cases a
        cases b
        cases hnumber
        cases hvalue
        rfl

/-- Events that concur may be told in any order as far as the pair and the balances go. -/
theorem standing_rowAfterAll_of_perm {told told' : List PositionTelling} (hperm : told.Perm told')
    (h : ∀ a ∈ told, ∀ b ∈ told, a.Concurs b) (address : String) (old : Option PositionRow) :
    (rowAfterAll address old told).map (·.standing) = (rowAfterAll address old told').map (·.standing) := by
  rw [standing_rowAfterAll, standing_rowAfterAll]
  exact hperm.foldl_eq' (fun a ha b hb before => standingAfter_comm (h a ha b hb) before) _

end PositionTelling
end PairIndex
