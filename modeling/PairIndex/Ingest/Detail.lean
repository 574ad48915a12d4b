import PairIndex.Event.Record
import PairIndex.Store.Rows

/-! The detail row of an event: its narrow fields spread over the columns that all events share. -/

namespace PairIndex

/-- The time of an event, if the calendar has it. -/
def EventBody.moment? (body : EventBody) : Option Moment :=
  Moment.ofSeconds? body.timestamp.toInt

/-- The columns that every event fills. -/
def Event.commonDetail (signature : String) (e : Event) : DetailRow where
  signature := signature
  logIndex := e.logIndex
  eventName := e.body.kind.name
  rawEvent := e.rawText
  pairAddress := some e.body.pair.toText
  positionAddress := e.body.position?.map (·.toText)
  userAddress := some e.body.actor.toText
  seqNum := e.body.seqNum?.map fun n => (n.toNat : Int)
  eventTime := e.body.moment?

/-- The detail row of an event. The first price is that of token 0 in units of token 1. -/
def Event.detail (signature : String) (e : Event) : DetailRow :=
  let row := e.commonDetail signature
  match e.body with
  | .swap isToken0In amountIn amountOut fee _ _ =>
    { row with
      amountIn := some amountIn.toNat
      amountOut := some amountOut.toNat
      fee := some fee.toNat
      isToken0In := some isToken0In
      price0 := if isToken0In then Price.ofWords amountOut amountIn else Price.ofWords amountIn amountOut
      price1 := if isToken0In then Price.ofWords amountIn amountOut else Price.ofWords amountOut amountIn }
  | .mint amount0 amount1 liquidity _ _ | .burn amount0 amount1 liquidity _ _
  | .adjustLiquidity amount0 amount1 liquidity _ =>
    { row with amount0 := some amount0.toNat, amount1 := some amount1.toNat, liquidity := some liquidity.toNat }
  | .adjustCollateral amount0 amount1 _ | .adjustDebt amount0 amount1 _ =>
    { row with amount0 := some amount0.toInt, amount1 := some amount1.toInt }
  | .flashloan amount0 amount1 fee0 fee1 _ _ =>
    { row with
      amount0 := some amount0.toNat
      amount1 := some amount1.toNat
      fee := some (fee0.toNat + fee1.toNat : Nat) }
  | .positionLiquidated _ _ collateral0 collateral1 _ _ _ _ _ _ =>
    { row with amount0 := some collateral0.toNat, amount1 := some collateral1.toNat }
  | .pairCreated .. | .updatePair .. | .positionCreated .. | .positionUpdated .. => row

end PairIndex
