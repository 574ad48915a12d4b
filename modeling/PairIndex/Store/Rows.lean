import PairIndex.Event.Classify
import PairIndex.Number.Price
import PairIndex.Time.Calendar

/-! The rows of the store. A row's natural key tells rows of one table apart; a row with the key of another is the same
fact told again. -/

namespace PairIndex

/-- Whether a transaction took effect. -/
inductive TransactionStatus where
  | success
  | failed
  deriving DecidableEq, Repr

def TransactionStatus.name : TransactionStatus → String
  | .success => "success"
  | .failed => "failed"

def TransactionStatus.ofName? (name : String) : Option TransactionStatus :=
  [TransactionStatus.success, .failed].find? (·.name == name)

/-- One processed transaction, successful or not. -/
structure TransactionRow where
  signature : String
  slot : Int
  blockTime : Option Moment
  pairAddress : Option String
  userAddress : Option String
  type : TransactionType
  status : TransactionStatus
  deriving DecidableEq, Repr

/-- A transaction is told by its signature. -/
def TransactionRow.key (r : TransactionRow) : String :=
  r.signature

/-- One event of a successful transaction, with all of it as text and its main fields in columns. -/
structure DetailRow where
  signature : String
  logIndex : Int
  eventName : String
  rawEvent : String
  pairAddress : Option String := none
  positionAddress : Option String := none
  userAddress : Option String := none
  seqNum : Option Int := none
  amount0 : Option Int := none
  amount1 : Option Int := none
  amountIn : Option Int := none
  amountOut : Option Int := none
  fee : Option Int := none
  isToken0In : Option Bool := none
  liquidity : Option Int := none
  price0 : Option Price := none
  price1 : Option Price := none
  eventTime : Option Moment := none
  deriving DecidableEq, Repr

/-- An event is told by its transaction and its log line. -/
def DetailRow.key (r : DetailRow) : String × Int :=
  (r.signature, r.logIndex)

/-- A swap, with the reserves after it. -/
structure SwapRow where
  pairAddress : String
  seqNum : Int
  signature : String
  userAddress : String
  isToken0In : Bool
  amountIn : Int
  amountOut : Int
  fee : Int
  reserve0 : Int
  reserve1 : Int
  eventTime : Option Moment
  deriving DecidableEq, Repr

/-- A swap is told by its pair and its number. -/
def SwapRow.key (r : SwapRow) : String × Int :=
  (r.pairAddress, r.seqNum)

/-- A change of liquidity, with the pair's state after it if the event tells it. -/
structure LiquidityRow where
  pairAddress : String
  seqNum : Int
  signature : String
  userAddress : String
  type : TransactionType
  amount0 : Int
  amount1 : Int
  liquidity : Int
  reserve0 : Option Int
  reserve1 : Option Int
  totalSupply : Option Int
  eventTime : Option Moment
  deriving DecidableEq, Repr

/-- A change of liquidity is told by its pair and its number. -/
def LiquidityRow.key (r : LiquidityRow) : String × Int :=
  (r.pairAddress, r.seqNum)

/-- The prices that the reserves after a swap imply. -/
structure PricePointRow where
  pairAddress : String
  seqNum : Int
  signature : String
  price0 : Option Price
  price1 : Option Price
  reserve0 : Int
  reserve1 : Int
  eventTime : Option Moment
  deriving DecidableEq, Repr

/-- A price point is told by its pair and its number. -/
def PricePointRow.key (r : PricePointRow) : String × Int :=
  (r.pairAddress, r.seqNum)

/-- The amounts that make up the state of a pair. -/
structure PairAmounts where
  reserve0 : Int
  reserve1 : Int
  totalSupply : Int
  price0Ema : Int
  price1Ema : Int
  rate0 : Int
  rate1 : Int
  deriving DecidableEq, Repr

def PairAmounts.zero : PairAmounts :=
  ⟨0, 0, 0, 0, 0, 0, 0⟩

/-- The amounts of an event's state. -/
def PairState.amounts (s : PairState) : PairAmounts where
  reserve0 := s.reserve0.toNat
  reserve1 := s.reserve1.toNat
  totalSupply := s.totalSupply.toNat
  price0Ema := s.price0Ema.toNat
  price1Ema := s.price1Ema.toNat
  rate0 := s.rate0.toNat
  rate1 := s.rate1.toNat

/-- The state of a pair after one event. -/
structure PairStateRow where
  pairAddress : String
  seqNum : Int
  signature : String
  state : PairAmounts
  eventTime : Option Moment
  deriving DecidableEq, Repr

/-- A state of a pair is told by the pair and its number. -/
def PairStateRow.key (r : PairStateRow) : String × Int :=
  (r.pairAddress, r.seqNum)

/-- A liquidation of a position. -/
structure LiquidationRow where
  positionAddress : String
  seqNum : Int
  pairAddress : String
  signature : String
  liquidator : String
  collateral0Liquidated : Int
  collateral1Liquidated : Int
  debt0Liquidated : Int
  debt1Liquidated : Int
  collateralPrice : Int
  liquidationBonusApplied : Int
  eventTime : Option Moment
  deriving DecidableEq, Repr

/-- A liquidation is told by its position and its number. -/
def LiquidationRow.key (r : LiquidationRow) : String × Int :=
  (r.positionAddress, r.seqNum)

/-- The number of an entity to which no event was applied yet. -/
def noSeqApplied : Int :=
  -1

/-- The latest known state of a pair, and what its creation told. -/
structure PairRow where
  pairAddress : String
  token0 : Option String := none
  token1 : Option String := none
  creator : Option String := none
  state : PairAmounts := .zero
  latestSeqNum : Int := noSeqApplied
  createdAt : Option Moment := none
  deriving DecidableEq, Repr

/-- A pair is told by its address. -/
def PairRow.key (r : PairRow) : String :=
  r.pairAddress

/-- The balances of a position. -/
structure PositionAmounts where
  collateral0 : Int
  collateral1 : Int
  debt0Shares : Int
  debt1Shares : Int
  deriving DecidableEq, Repr

def PositionAmounts.zero : PositionAmounts :=
  ⟨0, 0, 0, 0⟩

/-- The balances of an event's state. -/
def PositionState.amounts (s : PositionState) : PositionAmounts where
  collateral0 := s.collateral0.toNat
  collateral1 := s.collateral1.toNat
  debt0Shares := s.debt0Shares.toNat
  debt1Shares := s.debt1Shares.toNat

/-- The latest known state of a position, and whose it is. -/
structure PositionRow where
  positionAddress : String
  userAddress : Option String
  pairAddress : String
  state : PositionAmounts := .zero
  liquidated : Bool := false
  latestSeqNum : Int := noSeqApplied
  deriving DecidableEq, Repr

/-- A position is told by its address. -/
def PositionRow.key (r : PositionRow) : String :=
  r.positionAddress

/-- The lifecycle of a watched address. -/
inductive WatchStatus where
  | active
  | failed
  | disabled
  deriving DecidableEq, Repr

def WatchStatus.name : WatchStatus → String
  | .active => "active"
  | .failed => "failed"
  | .disabled => "disabled"

def WatchStatus.ofName? (name : String) : Option WatchStatus :=
  [WatchStatus.active, .failed, .disabled].find? (·.name == name)

/-- How far the history of an address was crawled: everything up to the latest signature was processed. -/
structure WatermarkRow where
  account : String
  latestSignature : Option String := none
  firstSignature : Option String := none
  checkedUpToSlot : Int := 0
  description : String := ""
  status : WatchStatus := .active
  failureLog : Option String := none
  deriving DecidableEq, Repr

/-- A watermark is told by its address. -/
def WatermarkRow.key (r : WatermarkRow) : String :=
  r.account

end PairIndex
