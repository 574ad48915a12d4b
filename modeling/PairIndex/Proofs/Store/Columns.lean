import PairIndex.Proofs.Number.Ratio
import PairIndex.Proofs.Store.Contents
import PairIndex.Store.Basic

/-! The columns that the values of a row are written to. A column of numbers holds so many digits, some of them behind the
point, and a column of texts so many characters (`Cell.Fits`); a store that keeps to its columns refuses any other row.

Left out are the values that fit by their type, which are truth values and moments, those that are taken over from the
transaction, which are its signature and the number of the log line, and the numbers of events in the order of changes,
which need not fit (`Session.fitsColumn`). -/

namespace PairIndex

/-- A value and the column that it is written to. -/
inductive Cell where
  /-- A number in a column of so many digits, of which `scale` stand behind the point. -/
  | numeric (precision scale : ℕ) (value : ℚ)
  /-- A text in a column of so many characters. -/
  | text (size : ℕ) (value : String)

namespace Cell

/-- A value can be written to its column as it is. A number is not rounded on the way. -/
def Fits : Cell → Prop
  | numeric precision scale value => ∃ n : ℤ, value = n / 10 ^ scale ∧ n.natAbs < 10 ^ precision
  | text size value => value.length ≤ size

def amount (n : ℤ) : Cell :=
  .numeric 20 0 n

/-- An amount in a column with room for a sign. -/
def signedAmount (n : ℤ) : Cell :=
  .numeric 21 0 n

def price (p : Price) : Cell :=
  .numeric 38 18 p.value

def address (text : String) : Cell :=
  .text 44 text

theorem fits_integer {precision : ℕ} {n : ℤ} (h : n.natAbs < 10 ^ precision) : (numeric precision 0 n).Fits :=
  ⟨n, by simp, h⟩

end Cell

/-! ## The cells of a row -/

def DetailRow.cells (r : DetailRow) : List Cell :=
  .text 64 r.eventName :: (r.pairAddress.toList ++ r.positionAddress.toList ++ r.userAddress.toList).map .address ++
    (r.amount0.toList ++ r.amount1.toList).map .signedAmount ++
    (r.amountIn.toList ++ r.amountOut.toList ++ r.fee.toList ++ r.liquidity.toList).map .amount ++
    (r.price0.toList ++ r.price1.toList).map .price

def SwapRow.cells (r : SwapRow) : List Cell :=
  [r.pairAddress, r.userAddress].map .address ++
    [r.amountIn, r.amountOut, r.fee, r.reserve0, r.reserve1].map .amount

def LiquidityRow.cells (r : LiquidityRow) : List Cell :=
  .text 32 r.type.name :: [r.pairAddress, r.userAddress].map .address ++
    [r.amount0, r.amount1, r.liquidity].map .amount ++
    (r.reserve0.toList ++ r.reserve1.toList ++ r.totalSupply.toList).map .amount

def PricePointRow.cells (r : PricePointRow) : List Cell :=
  .address r.pairAddress :: (r.price0.toList ++ r.price1.toList).map .price ++
    [r.reserve0, r.reserve1].map .amount

def PairAmounts.cells (state : PairAmounts) : List Cell :=
  [state.reserve0, state.reserve1, state.totalSupply, state.price0Ema, state.price1Ema, state.rate0, state.rate1].map
    .amount

def PairStateRow.cells (r : PairStateRow) : List Cell :=
  .address r.pairAddress :: r.state.cells

def LiquidationRow.cells (r : LiquidationRow) : List Cell :=
  [r.positionAddress, r.pairAddress, r.liquidator].map .address ++
    [r.collateral0Liquidated, r.collateral1Liquidated, r.debt0Liquidated, r.debt1Liquidated, r.collateralPrice,
      r.liquidationBonusApplied].map .amount

def PairRow.cells (r : PairRow) : List Cell :=
  (r.pairAddress :: r.token0.toList ++ r.token1.toList ++ r.creator.toList).map .address ++ r.state.cells

def PositionAmounts.cells (state : PositionAmounts) : List Cell :=
  [state.collateral0, state.collateral1, state.debt0Shares, state.debt1Shares].map .amount

def PositionRow.cells (r : PositionRow) : List Cell :=
  (r.positionAddress :: r.userAddress.toList ++ [r.pairAddress]).map .address ++ r.state.cells

/-! ## The cells of a table -/

namespace Table

variable {κ α : Type} {key : α → κ}

def cells (cellsOf : α → List Cell) (t : Table key) : List Cell :=
  t.rows.flatMap cellsOf

variable [DecidableEq κ] {cellsOf : α → List Cell} {t : Table key} {cell : Cell}

theorem mem_cells_insertNew {row : α} (h : cell ∈ (t.insertNew row).1.cells cellsOf) :
    cell ∈ t.cells cellsOf ∨ cell ∈ cellsOf row := by
  obtain ⟨old, hold, hcell⟩ := List.mem_flatMap.mp h
  rcases mem_rows_insertNew hold with rfl | hmem
  · exact Or.inr hcell
  · exact Or.inl (List.mem_flatMap.mpr ⟨old, hmem, hcell⟩)

theorem mem_cells_insertIfAny {row? : Option α} (h : cell ∈ (t.insertIfAny row?).cells cellsOf) :
    cell ∈ t.cells cellsOf ∨ cell ∈ row?.toList.flatMap cellsOf := by
  cases row? with
  | none => exact Or.inl h
  | some row =>
    rcases mem_cells_insertNew h with hold | hnew
    · exact Or.inl hold
    · exact Or.inr (by simpa using hnew)

/-- A row that is changed has the cells that it had and those that the change writes. -/
theorem mem_cells_upsertIfAny {β : Type} {change? : Option β} {upsert : β → Upsert key} {written : β → List Cell}
    (hchange : ∀ x row, ∀ cell ∈ cellsOf ((upsert x).change row), cell ∈ cellsOf row ∨ cell ∈ written x)
    (h : cell ∈ (t.upsertIfAny (change?.map upsert)).cells cellsOf) :
    cell ∈ t.cells cellsOf ∨ cell ∈ change?.toList.flatMap fun x => cellsOf (upsert x).fresh ++ written x := by
  cases change? with
  | none => exact Or.inl h
  | some x =>
    rw [Option.toList_some, List.flatMap_singleton]
    have hkept : ∀ row ∈ (t.insertNew (upsert x).fresh).1.rows, cell ∈ cellsOf row →
        cell ∈ t.cells cellsOf ∨ cell ∈ cellsOf (upsert x).fresh ++ written x := by
      intro row hrow hcell
      exact (mem_cells_insertNew (List.mem_flatMap.mpr ⟨row, hrow, hcell⟩)).imp_right (List.mem_append_left _)
    obtain ⟨row, hrow, hcell⟩ := List.mem_flatMap.mp h
    obtain ⟨old, hold, rfl⟩ := mem_rows_update (upsert x).keeps hrow
    split_ifs at hcell with hkey
    · rcases hchange x old cell hcell with hbefore | hwritten
      · exact hkept old hold hbefore
      · exact Or.inr (List.mem_append_right _ hwritten)
    · exact hkept old hold hcell

end Table

/-- The cells of the rows that events leave. -/
def Store.cells (s : Store) : List Cell :=
  s.details.cells DetailRow.cells ++ s.swaps.cells SwapRow.cells ++ s.liquidityChanges.cells LiquidityRow.cells ++
    s.pricePoints.cells PricePointRow.cells ++ s.pairStates.cells PairStateRow.cells ++
    s.liquidations.cells LiquidationRow.cells ++ s.pairs.cells PairRow.cells ++ s.positions.cells PositionRow.cells

end PairIndex
