import PairIndex.Proofs.Bytes.Base58
import PairIndex.Proofs.Ingest.Calls
import PairIndex.Proofs.Store.Columns

/-! What an event writes fits the columns that it is written to. A word has at most twenty digits, and so has the sum of
two; a signed word has fewer than twenty-one; a ratio of words has at most twenty digits in front of the point; and an
address has at most forty-four characters. So whatever an event holds, no value that is worked out from it is refused
(`Event.writtenCells_fit`), and the values in every store that calls reach fit (`Call.cells_fit`). -/

namespace PairIndex

/-! ## Values that fit -/

theorem PublicKey.length_toText_le (key : PublicKey) : key.toText.length ≤ 44 :=
  Base58.length_encode_le (by rw [key.length_eq]; decide)

/-- The ratio of two words stays below what thirty-eight digits can tell, rounded up or not. -/
theorem Price.units_lt {numerator denominator : UInt64} {p : Price} (h : ofWords numerator denominator = some p) :
    p.units < 10 ^ 38 := by
  have hprice := ofRatio_words numerator denominator
  rw [h] at hprice
  by_cases hzero : (denominator.toNat : ℤ) = 0
  · rw [ofRatio, if_pos hzero] at hprice
    cases hprice
  · rw [ofRatio_eq_units numerator (by omega)] at hprice
    cases hprice
    calc ratioUnits numerator.toNat denominator.toNat
        ≤ (numerator.toNat + 1) * scale := ratioUnits_le ..
      _ ≤ 2 ^ 64 * scale := Nat.mul_le_mul_right _ numerator.toNat_lt
      _ < 10 ^ 38 := by decide

namespace Cell

@[simp]
theorem fits_amount_zero : (amount 0).Fits :=
  fits_integer (by decide)

@[simp]
theorem fits_amount (w : UInt64) : (amount w.toNat).Fits :=
  fits_integer (by have hw := w.toNat_lt; omega)

@[simp]
theorem fits_amount_add (v w : UInt64) : (amount (v.toNat + w.toNat)).Fits :=
  fits_integer (by have hv := v.toNat_lt; have hw := w.toNat_lt; omega)

@[simp]
theorem fits_signedAmount (w : UInt64) : (signedAmount w.toNat).Fits :=
  fits_integer (by have hw := w.toNat_lt; omega)

@[simp]
theorem fits_signedAmount_toInt (w : Int64) : (signedAmount w.toInt).Fits :=
  fits_integer (by have hlow := w.le_toInt; have hhigh := w.toInt_lt; omega)

@[simp]
theorem fits_eventName (kind : EventKind) : (text 64 kind.name).Fits := by
  cases kind <;> exact Nat.le_of_ble_eq_true rfl

@[simp]
theorem fits_typeName (type : TransactionType) : (text 32 type.name).Fits := by
  cases type <;> exact Nat.le_of_ble_eq_true rfl

@[simp]
theorem fits_address (key : PublicKey) : (address key.toText).Fits :=
  key.length_toText_le

theorem fits_price (numerator denominator : UInt64) :
    ∀ p, Price.ofWords numerator denominator = some p → (price p).Fits := by
  intro p h
  refine ⟨(if p.negative then -1 else 1) * p.units, ?_, ?_⟩
  · rw [Price.value, mul_div_assoc']
    push_cast
    rfl
  · have habs : ((if p.negative then -1 else 1) * (p.units : ℤ)).natAbs = p.units := by
      split_ifs <;> simp
    rw [habs]
    exact Price.units_lt h

end Cell

/-! ## The values of an event -/

/-- The values that a change of a pair writes. -/
def PairChange.cells : PairChange → List Cell
  | .created token0 token1 creator _ => [token0, token1, creator].map .address
  | .moved _ state => state.cells

theorem PairChange.mem_cells_apply {change : PairChange} {row : PairRow} {cell : Cell}
    (h : cell ∈ (change.apply row).cells) : cell ∈ row.cells ∨ cell ∈ change.cells := by
  cases change with
  | created token0 token1 creator createdAt =>
    simp only [apply, PairRow.withIdentity, PairRow.cells, cells, List.map_cons, List.map_append, List.map_nil,
      Option.toList_some, List.mem_append, List.mem_cons] at h ⊢
    tauto
  | moved seqNum state =>
    simp only [apply, PairRow.advance] at h
    split_ifs at h with hnewer
    · rcases List.mem_append.mp h with haddress | hstate
      · exact Or.inl (List.mem_append_left _ haddress)
      · exact Or.inr hstate
    · exact Or.inl h

/-- The values that a change of a position writes. -/
def PositionChange.cells : PositionChange → List Cell
  | .created userAddress pairAddress => [userAddress, pairAddress].map .address
  | .moved _ state _ => state.cells

theorem PositionChange.mem_cells_apply {change : PositionChange} {row : PositionRow} {cell : Cell}
    (h : cell ∈ (change.apply row).cells) : cell ∈ row.cells ∨ cell ∈ change.cells := by
  cases change with
  | created userAddress pairAddress =>
    simp only [apply, PositionRow.withIdentity, PositionRow.cells, cells, List.map_cons, List.map_append,
      List.map_nil, Option.toList_some, List.mem_append, List.mem_cons] at h ⊢
    tauto
  | moved seqNum state liquidated =>
    simp only [apply, PositionRow.advance] at h
    split_ifs at h with hnewer
    · rcases List.mem_append.mp h with haddress | hstate
      · exact Or.inl (List.mem_append_left _ haddress)
      · exact Or.inr hstate
    · exact Or.inl h

/-- Every value that an event writes, whatever is known already. -/
def Event.writtenCells (signature : String) (e : Event) : List Cell :=
  (e.detail signature).cells ++ (e.body.swapRow? signature).toList.flatMap SwapRow.cells ++
    (e.body.liquidityRow? signature).toList.flatMap LiquidityRow.cells ++
    (e.body.pricePointRow? signature).toList.flatMap PricePointRow.cells ++
    (e.body.pairStateRow? signature).toList.flatMap PairStateRow.cells ++
    (e.body.liquidationRow? signature).toList.flatMap LiquidationRow.cells ++
    (e.body.pairChange?.toList.flatMap fun (pairAddress, change) => PairRow.cells { pairAddress } ++ change.cells) ++
    (e.body.positionChange?.toList.flatMap fun (fresh, change) => fresh.cells ++ change.cells)

theorem Event.fits_detail (signature : String) (e : Event) : ∀ cell ∈ (e.detail signature).cells, cell.Fits := by
  obtain ⟨body, logIndex⟩ := e
  cases body with
  | swap isToken0In amountIn amountOut fee state m =>
    have hin := Cell.fits_price amountIn amountOut
    have hout := Cell.fits_price amountOut amountIn
    cases isToken0In with
    | false =>
      simpa [detail, commonDetail, DetailRow.cells, EventBody.position?, or_imp, forall_and] using And.intro hin hout
    | true =>
      simpa [detail, commonDetail, DetailRow.cells, EventBody.position?, or_imp, forall_and] using And.intro hout hin
  | _ => simp [detail, commonDetail, DetailRow.cells, EventBody.position?]

namespace EventBody

variable {signature : String} {body : EventBody}

theorem fits_swapRow? {row : SwapRow} (h : body.swapRow? signature = some row) : ∀ cell ∈ row.cells, cell.Fits := by
  cases body <;> cases h
  simp [SwapRow.cells]

theorem fits_liquidityRow? {row : LiquidityRow} (h : body.liquidityRow? signature = some row) :
    ∀ cell ∈ row.cells, cell.Fits := by
  cases body <;> cases h <;> simp [LiquidityRow.cells]

theorem fits_pricePointRow? {row : PricePointRow} (h : body.pricePointRow? signature = some row) :
    ∀ cell ∈ row.cells, cell.Fits := by
  cases body <;> cases h
  case swap _ _ _ _ state m =>
    have hprice0 := Cell.fits_price state.reserve1 state.reserve0
    have hprice1 := Cell.fits_price state.reserve0 state.reserve1
    simpa [PricePointRow.cells, or_imp, forall_and] using And.intro hprice0 hprice1

theorem fits_pairStateRow? {row : PairStateRow} (h : body.pairStateRow? signature = some row) :
    ∀ cell ∈ row.cells, cell.Fits := by
  cases body <;> cases h <;> simp [PairStateRow.cells, PairAmounts.cells, PairState.amounts]

theorem fits_liquidationRow? {row : LiquidationRow} (h : body.liquidationRow? signature = some row) :
    ∀ cell ∈ row.cells, cell.Fits := by
  cases body <;> cases h
  simp [LiquidationRow.cells]

theorem fits_pairChange? {pairAddress : String} {change : PairChange}
    (h : body.pairChange? = some (pairAddress, change)) :
    ∀ cell ∈ PairRow.cells { pairAddress } ++ change.cells, cell.Fits := by
  cases body <;> cases h <;>
    simp [PairRow.cells, PairChange.cells, PairAmounts.cells, PairAmounts.zero, PairState.amounts]

theorem fits_positionChange? {fresh : PositionRow} {change : PositionChange}
    (h : body.positionChange? = some (fresh, change)) : ∀ cell ∈ fresh.cells ++ change.cells, cell.Fits := by
  cases body <;> cases h <;>
    simp [PositionRow.cells, PositionChange.cells, PositionAmounts.cells, PositionAmounts.zero,
      PositionState.amounts]

end EventBody

/-- Whatever an event holds, every value that it writes fits. -/
theorem Event.fits_writtenCells (signature : String) (e : Event) : ∀ cell ∈ e.writtenCells signature, cell.Fits := by
  have hrows : ∀ {α : Type} {row? : Option α} {cellsOf : α → List Cell},
      (∀ row, row? = some row → ∀ cell ∈ cellsOf row, cell.Fits) →
        ∀ cell ∈ row?.toList.flatMap cellsOf, cell.Fits := by
    intro α row? cellsOf h cell hcell
    obtain ⟨row, hrow, hmem⟩ := List.mem_flatMap.mp hcell
    exact h row (Option.mem_toList.mp hrow) cell hmem
  simp only [writtenCells, List.forall_mem_append]
  refine ⟨⟨⟨⟨⟨⟨⟨e.fits_detail signature, ?_⟩, ?_⟩, ?_⟩, ?_⟩, ?_⟩, ?_⟩, ?_⟩
  · exact hrows fun _ => EventBody.fits_swapRow?
  · exact hrows fun _ => EventBody.fits_liquidityRow?
  · exact hrows fun _ => EventBody.fits_pricePointRow?
  · exact hrows fun _ => EventBody.fits_pairStateRow?
  · exact hrows fun _ => EventBody.fits_liquidationRow?
  · exact hrows fun _ => EventBody.fits_pairChange?
  · exact hrows fun _ => EventBody.fits_positionChange?

/-! ## The values of a store -/

/-- What a store holds after an event it held before, or the event wrote it. -/
theorem Commit.mem_cells_event {signature : String} {e : Event} {s : Store} {cell : Cell}
    (h : cell ∈ ((event signature e).apply s).cells) : cell ∈ s.cells ∨ cell ∈ e.writtenCells signature := by
  simp only [Store.cells, Event.writtenCells, List.mem_append] at h ⊢
  -- The tables of a store and the rows of an event stand in the same order.
  rcases h with ((((((h | h) | h) | h) | h) | h) | h) | h
  · have hdetails := Table.mem_cells_insertNew h
    tauto
  · have hswaps := Table.mem_cells_insertIfAny h
    tauto
  · have hliquidity := Table.mem_cells_insertIfAny h
    tauto
  · have hprices := Table.mem_cells_insertIfAny h
    tauto
  · have hstates := Table.mem_cells_insertIfAny h
    tauto
  · have hliquidations := Table.mem_cells_insertIfAny h
    tauto
  · have hpairs := Table.mem_cells_upsertIfAny (fun _ _ _ => PairChange.mem_cells_apply) h
    tauto
  · have hpositions := Table.mem_cells_upsertIfAny (fun _ _ _ => PositionChange.mem_cells_apply) h
    tauto

/-- Every value that is worked out from an event fits its column, whatever the event holds, and what a store holds after
the event it held before, or it is such a value. -/
theorem Event.writtenCells_fit (signature : String) (e : Event) :
    (∀ cell ∈ e.writtenCells signature, cell.Fits) ∧
      ∀ s told s', (Session.applyEvent signature e).run s = .ok (told, s') →
        ∀ cell ∈ s'.cells, cell ∈ s.cells ∨ cell ∈ e.writtenCells signature := by
  refine ⟨e.fits_writtenCells signature, fun s told s' hrun cell hcell => ?_⟩
  rw [Session.run_applyEvent] at hrun
  split_ifs at hrun with hfits
  cases hrun
  exact Commit.mem_cells_event hcell

/-- In every store that calls of the processor reach, whatever fails and wherever a call is cut off, the values that
events left fit their columns. -/
theorem Call.cells_fit (run : List (Call × List (Option Failure))) : ∀ cell ∈ (runAll run .empty).cells, cell.Fits := by
  rw [store_runAll]
  have hstep : ∀ c ∈ trace run, ∀ s : Store, (∀ cell ∈ s.cells, cell.Fits) → ∀ cell ∈ (c.apply s).cells, cell.Fits := by
    intro c _ s hs cell hcell
    cases c with
    | transaction => exact hs cell hcell
    | event signature e =>
      rcases Commit.mem_cells_event hcell with hold | hwritten
      · exact hs cell hold
      · exact e.fits_writtenCells signature cell hwritten
  exact Commit.applyAll_induction (trace run) hstep nofun

end PairIndex
