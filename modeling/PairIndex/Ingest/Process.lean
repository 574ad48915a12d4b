import PairIndex.Event.Log
import PairIndex.Ingest.Detail
import PairIndex.Store.Entities
import PairIndex.Store.Records

/-! Processing a transaction. Its row is written in a session of its own; then each event is applied in a session of its
own, so that an event that fails leaves nothing behind and does not disturb the others. Rows are written once and states
only move forward, so transactions may be processed again and in any order. -/

namespace PairIndex

/-- The outcome of processing one transaction. -/
structure ProcessResult where
  signature : String
  type : TransactionType
  status : TransactionStatus
  /-- Whether the transaction was not known before. -/
  isNew : Bool
  applied : Nat := 0
  stale : Nat := 0
  failed : Nat := 0
  deriving DecidableEq, Repr

/-- Whether every event was applied or stale. -/
def ProcessResult.isOk (r : ProcessResult) : Bool :=
  r.failed == 0

namespace Session

/-- Writes the state of a pair to its series and, if it is the newest, to the pair. -/
def recordPairState (signature : String) (state : PairState) (m : EventMetadata) (moment : Option Moment) :
    Session Unit := do
  let _ ← insertPairState
    { pairAddress := m.pair.toText, seqNum := m.seqNum.toNat, signature, state := state.amounts, eventTime := moment }

/-- Writes the newest state of a pair, and tells whether it is newer than the one known. -/
def movePair (state : PairState) (m : EventMetadata) : Session Bool := do
  ensurePair m.pair.toText
  applyPairState m.pair.toText m.seqNum.toNat state.amounts

/-- Writes the newest balances of a position, and tells whether they are newer than those known. -/
def movePosition (position : PublicKey) (owner : Option PublicKey) (state : PositionState) (liquidated : Bool)
    (m : EventMetadata) : Session Bool := do
  ensurePosition position.toText m.pair.toText (owner.map (·.toText))
  applyPositionState position.toText m.seqNum.toNat state.amounts liquidated

/-- Writes a swap and the prices that the reserves after it imply. -/
def recordSwap (signature : String) (isToken0In : Bool) (amountIn amountOut fee : UInt64) (state : PairState)
    (m : EventMetadata) (moment : Option Moment) : Session Unit := do
  let _ ← insertSwap
    { pairAddress := m.pair.toText, seqNum := m.seqNum.toNat, signature, userAddress := m.signer.toText, isToken0In,
      amountIn := amountIn.toNat, amountOut := amountOut.toNat, fee := fee.toNat, reserve0 := state.reserve0.toNat,
      reserve1 := state.reserve1.toNat, eventTime := moment }
  let _ ← insertPricePoint
    { pairAddress := m.pair.toText, seqNum := m.seqNum.toNat, signature,
      price0 := Price.ofWords state.reserve1 state.reserve0, price1 := Price.ofWords state.reserve0 state.reserve1,
      reserve0 := state.reserve0.toNat, reserve1 := state.reserve1.toNat, eventTime := moment }

/-- Writes a change of liquidity, with the pair's state after it if it is known. -/
def recordLiquidity (signature : String) (type : TransactionType) (amount0 amount1 liquidity : UInt64)
    (state : Option PairState) (m : EventMetadata) (moment : Option Moment) : Session Unit := do
  let _ ← insertLiquidity
    { pairAddress := m.pair.toText, seqNum := m.seqNum.toNat, signature, userAddress := m.signer.toText, type,
      amount0 := amount0.toNat, amount1 := amount1.toNat, liquidity := liquidity.toNat,
      reserve0 := state.map fun s => (s.reserve0.toNat : Int), reserve1 := state.map fun s => (s.reserve1.toNat : Int),
      totalSupply := state.map fun s => (s.totalSupply.toNat : Int), eventTime := moment }

/-- Writes what an event tells besides its detail, and tells whether it was not stale. -/
def applyBody (signature : String) (body : EventBody) : Session Bool := do
  let moment := body.moment?
  match body with
  | .pairCreated token0 token1 pair creator _ =>
    registerPair pair.toText token0.toText token1.toText creator.toText moment
    return true
  | .positionCreated user pair position _ =>
    registerPosition position.toText user.toText pair.toText
    return true
  | .adjustCollateral .. | .adjustDebt .. | .flashloan .. => return true
  | .adjustLiquidity amount0 amount1 liquidity m =>
    recordLiquidity signature body.liquidityChange amount0 amount1 liquidity none m moment
    return true
  | .swap isToken0In amountIn amountOut fee state m =>
    recordPairState signature state m moment
    recordSwap signature isToken0In amountIn amountOut fee state m moment
    movePair state m
  | .mint amount0 amount1 liquidity state m | .burn amount0 amount1 liquidity state m =>
    recordPairState signature state m moment
    recordLiquidity signature body.liquidityChange amount0 amount1 liquidity (some state) m moment
    movePair state m
  | .updatePair state m =>
    recordPairState signature state m moment
    movePair state m
  | .positionUpdated position state m => movePosition position (some m.signer) state false m
  | .positionLiquidated position liquidator collateral0 collateral1 debt0 debt1 price bonus state m =>
    let _ ← insertLiquidation
      { positionAddress := position.toText, seqNum := m.seqNum.toNat, pairAddress := m.pair.toText, signature,
        liquidator := liquidator.toText, collateral0Liquidated := collateral0.toNat,
        collateral1Liquidated := collateral1.toNat, debt0Liquidated := debt0.toNat, debt1Liquidated := debt1.toNat,
        collateralPrice := price.toNat, liquidationBonusApplied := bonus.toNat, eventTime := moment }
    movePosition position none state true m

/-- Applies one event: its detail row and what else it tells. -/
def applyEvent (signature : String) (e : Event) : Session Bool := do
  let _ ← insertDetail (e.detail signature)
  applyBody signature e.body

end Session

/-- What is known of a transaction once its log was read. -/
structure DecodedTransaction where
  signature : String
  slot : Int
  blockTime : Option Moment
  events : List Event
  failed : Bool
  deriving DecidableEq, Repr

namespace DecodedTransaction

def status (tx : DecodedTransaction) : TransactionStatus :=
  if tx.failed then .failed else .success

/-- The row of a transaction: its type, and the pair and the user of its primary event. -/
def row (tx : DecodedTransaction) : TransactionRow :=
  let (type, primary) := classify tx.events
  { signature := tx.signature, slot := tx.slot, blockTime := tx.blockTime,
    pairAddress := primary.map (·.body.pair.toText), userAddress := primary.map (·.body.actor.toText),
    type, status := tx.status }

/-- Applies events one after another. An event that fails is counted, unless the store is out of reach. -/
def applyEvents (signature : String) : List Event → ProcessResult → Attempt Database ProcessResult
  | [], result => return result
  | e :: rest, result => do
    let outcome ← ExceptT.lift (Database.session (Session.applyEvent signature e)).run
    match outcome with
    | .ok true => applyEvents signature rest { result with applied := result.applied + 1 }
    | .ok false => applyEvents signature rest { result with stale := result.stale + 1 }
    | .error failure =>
      if failure.isFatal then throw failure
      else applyEvents signature rest { result with failed := result.failed + 1 }

/-- Processes a transaction. The events of one that failed are not applied. -/
def process (tx : DecodedTransaction) : Attempt Database ProcessResult := do
  let isNew ← Database.session (Session.insertTransaction tx.row)
  let result : ProcessResult := { signature := tx.signature, type := tx.row.type, status := tx.status, isNew }
  if tx.failed then return result
  else applyEvents tx.signature tx.events result

end DecodedTransaction
end PairIndex
