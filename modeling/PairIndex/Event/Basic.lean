import PairIndex.Bytes.Base58

/-! The events that a lending pair program writes to its log: what each carries, and the view they share. Events that
change a pair or a position carry its state after the change, so that the newest one alone tells the state. -/

namespace PairIndex

/-- A public key of thirty-two bytes. -/
structure PublicKey where
  bytes : Bytes
  length_eq : bytes.length = 32
  deriving DecidableEq, Repr

def PublicKey.toText (key : PublicKey) : String :=
  Base58.encode key.bytes

/-- What an event that changes a pair or a position has in common with the others: who signed, which pair it is about,
its number in the order of changes, and its time in seconds. -/
structure EventMetadata where
  signer : PublicKey
  pair : PublicKey
  seqNum : UInt64
  timestamp : Int64
  deriving DecidableEq, Repr

/-- The state of a pair after an event. -/
structure PairState where
  reserve0 : UInt64
  reserve1 : UInt64
  totalSupply : UInt64
  price0Ema : UInt64
  price1Ema : UInt64
  rate0 : UInt64
  rate1 : UInt64
  deriving DecidableEq, Repr

/-- The balances of a position after an event. -/
structure PositionState where
  collateral0 : UInt64
  collateral1 : UInt64
  debt0Shares : UInt64
  debt1Shares : UInt64
  deriving DecidableEq, Repr

/-- What an event says. -/
inductive EventBody where
  | pairCreated (token0 token1 pair creator : PublicKey) (timestamp : Int64)
  | swap (isToken0In : Bool) (amountIn amountOut fee : UInt64) (state : PairState) (metadata : EventMetadata)
  | mint (amount0 amount1 liquidity : UInt64) (state : PairState) (metadata : EventMetadata)
  | burn (amount0 amount1 liquidity : UInt64) (state : PairState) (metadata : EventMetadata)
  /-- A change of liquidity that does not tell the state of the pair after it. -/
  | adjustLiquidity (amount0 amount1 liquidity : UInt64) (metadata : EventMetadata)
  | updatePair (state : PairState) (metadata : EventMetadata)
  | adjustCollateral (amount0 amount1 : Int64) (metadata : EventMetadata)
  | adjustDebt (amount0 amount1 : Int64) (metadata : EventMetadata)
  | flashloan (amount0 amount1 fee0 fee1 : UInt64) (receiver : PublicKey) (metadata : EventMetadata)
  | positionCreated (user pair position : PublicKey) (timestamp : Int64)
  /-- A change of a position; its number counts the changes of that position. -/
  | positionUpdated (position : PublicKey) (state : PositionState) (metadata : EventMetadata)
  /-- A liquidation; its number counts the changes of that position. -/
  | positionLiquidated (position liquidator : PublicKey)
      (collateral0Liquidated collateral1Liquidated debt0Liquidated debt1Liquidated : UInt64)
      (collateralPrice liquidationBonusApplied : UInt64) (state : PositionState) (metadata : EventMetadata)
  deriving DecidableEq, Repr

/-- An event and the number of the log line that carries it. -/
structure Event where
  body : EventBody
  logIndex : Int
  deriving DecidableEq, Repr

/-- The kinds of events. -/
inductive EventKind where
  | pairCreated
  | swap
  | mint
  | burn
  | adjustLiquidity
  | updatePair
  | adjustCollateral
  | adjustDebt
  | flashloan
  | positionCreated
  | positionUpdated
  | positionLiquidated
  deriving DecidableEq, Repr

namespace EventKind

def all : List EventKind :=
  [.pairCreated, .swap, .mint, .burn, .adjustLiquidity, .updatePair, .adjustCollateral, .adjustDebt, .flashloan,
    .positionCreated, .positionUpdated, .positionLiquidated]

/-- The name under which the program declares a kind. -/
def name : EventKind → String
  | .pairCreated => "PairCreatedEvent"
  | .swap => "SwapEvent"
  | .mint => "MintEvent"
  | .burn => "BurnEvent"
  | .adjustLiquidity => "AdjustLiquidityEvent"
  | .updatePair => "UpdatePairEvent"
  | .adjustCollateral => "AdjustCollateralEvent"
  | .adjustDebt => "AdjustDebtEvent"
  | .flashloan => "FlashloanEvent"
  | .positionCreated => "UserPositionCreatedEvent"
  | .positionUpdated => "UserPositionUpdatedEvent"
  | .positionLiquidated => "UserPositionLiquidatedEvent"

end EventKind

namespace EventBody

def kind : EventBody → EventKind
  | .pairCreated .. => .pairCreated
  | .swap .. => .swap
  | .mint .. => .mint
  | .burn .. => .burn
  | .adjustLiquidity .. => .adjustLiquidity
  | .updatePair .. => .updatePair
  | .adjustCollateral .. => .adjustCollateral
  | .adjustDebt .. => .adjustDebt
  | .flashloan .. => .flashloan
  | .positionCreated .. => .positionCreated
  | .positionUpdated .. => .positionUpdated
  | .positionLiquidated .. => .positionLiquidated

def metadata? : EventBody → Option EventMetadata
  | .pairCreated .. | .positionCreated .. => none
  | .swap _ _ _ _ _ m | .mint _ _ _ _ m | .burn _ _ _ _ m | .adjustLiquidity _ _ _ m => some m
  | .updatePair _ m | .adjustCollateral _ _ m | .adjustDebt _ _ m | .flashloan _ _ _ _ _ m => some m
  | .positionUpdated _ _ m | .positionLiquidated _ _ _ _ _ _ _ _ _ m => some m

/-- The pair that an event is about, or that its position belongs to. -/
def pair : EventBody → PublicKey
  | .pairCreated _ _ pair _ _ => pair
  | .positionCreated _ pair _ _ => pair
  | .swap _ _ _ _ _ m | .mint _ _ _ _ m | .burn _ _ _ _ m | .adjustLiquidity _ _ _ m => m.pair
  | .updatePair _ m | .adjustCollateral _ _ m | .adjustDebt _ _ m | .flashloan _ _ _ _ _ m => m.pair
  | .positionUpdated _ _ m | .positionLiquidated _ _ _ _ _ _ _ _ _ m => m.pair

def position? : EventBody → Option PublicKey
  | .positionCreated _ _ position _ => some position
  | .positionUpdated position _ _ => some position
  | .positionLiquidated position _ _ _ _ _ _ _ _ _ => some position
  | _ => none

/-- The position or the pair that an event is about. -/
def target (body : EventBody) : PublicKey :=
  body.position?.getD body.pair

/-- Who caused an event: its signer, or the creator or owner of what it creates. -/
def actor : EventBody → PublicKey
  | .pairCreated _ _ _ creator _ => creator
  | .positionCreated user _ _ _ => user
  | .swap _ _ _ _ _ m | .mint _ _ _ _ m | .burn _ _ _ _ m | .adjustLiquidity _ _ _ m => m.signer
  | .updatePair _ m | .adjustCollateral _ _ m | .adjustDebt _ _ m | .flashloan _ _ _ _ _ m => m.signer
  | .positionUpdated _ _ m | .positionLiquidated _ _ _ _ _ _ _ _ _ m => m.signer

/-- The number of an event in the order of changes of its target. -/
def seqNum? (body : EventBody) : Option UInt64 :=
  body.metadata?.map (·.seqNum)

/-- The time of an event in seconds. -/
def timestamp : EventBody → Int64
  | .pairCreated _ _ _ _ t => t
  | .positionCreated _ _ _ t => t
  | .swap _ _ _ _ _ m | .mint _ _ _ _ m | .burn _ _ _ _ m | .adjustLiquidity _ _ _ m => m.timestamp
  | .updatePair _ m | .adjustCollateral _ _ m | .adjustDebt _ _ m | .flashloan _ _ _ _ _ m => m.timestamp
  | .positionUpdated _ _ m | .positionLiquidated _ _ _ _ _ _ _ _ _ m => m.timestamp

end EventBody
end PairIndex
