import PairIndex.Store.Basic

/-! Statements on transactions and on the rows that events leave. Each is told once: a row whose key is taken is not
written, and the statement tells whether it was. -/

namespace PairIndex.Session

/-- Adds a transaction unless its signature is known. -/
def insertTransaction (row : TransactionRow) : Session Bool := do
  checkColumn row.slot
  modifyGet fun s =>
    let (transactions, isNew) := s.transactions.insertNew row
    (isNew, { s with transactions })

def transaction? (signature : String) : Session (Option TransactionRow) := do
  return (← get).transactions.find? signature

/-- The transactions whose primary event is about a pair, the highest slot first and of one slot the newest row first;
at most `limit`, or all if the limit is negative. -/
def transactionsOfPair (pairAddress : String) (limit : Int) : Session (List TransactionRow) := do
  checkColumn limit
  let rows := (← get).transactions.rows.filter fun row => row.pairAddress == some pairAddress
  let sorted := rows.mergeSort fun a b => decide (b.slot ≤ a.slot)
  return if limit < 0 then sorted else sorted.take limit.toNat

/-- Adds an event's detail unless its place is taken. -/
def insertDetail (row : DetailRow) : Session Bool := do
  checkColumn row.logIndex
  checkColumn? row.seqNum
  modifyGet fun s =>
    let (details, isNew) := s.details.insertNew row
    (isNew, { s with details })

/-- Adds a swap unless its number is taken. -/
def insertSwap (row : SwapRow) : Session Bool := do
  checkColumn row.seqNum
  modifyGet fun s =>
    let (swaps, isNew) := s.swaps.insertNew row
    (isNew, { s with swaps })

/-- Adds a change of liquidity unless its number is taken. -/
def insertLiquidity (row : LiquidityRow) : Session Bool := do
  checkColumn row.seqNum
  modifyGet fun s =>
    let (liquidityChanges, isNew) := s.liquidityChanges.insertNew row
    (isNew, { s with liquidityChanges })

/-- Adds a price point unless its number is taken. -/
def insertPricePoint (row : PricePointRow) : Session Bool := do
  checkColumn row.seqNum
  modifyGet fun s =>
    let (pricePoints, isNew) := s.pricePoints.insertNew row
    (isNew, { s with pricePoints })

/-- Adds a state of a pair unless its number is taken. -/
def insertPairState (row : PairStateRow) : Session Bool := do
  checkColumn row.seqNum
  modifyGet fun s =>
    let (pairStates, isNew) := s.pairStates.insertNew row
    (isNew, { s with pairStates })

/-- Adds a liquidation unless its number is taken. -/
def insertLiquidation (row : LiquidationRow) : Session Bool := do
  checkColumn row.seqNum
  modifyGet fun s =>
    let (liquidations, isNew) := s.liquidations.insertNew row
    (isNew, { s with liquidations })

end PairIndex.Session
