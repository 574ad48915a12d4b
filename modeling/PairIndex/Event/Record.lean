import PairIndex.Event.Basic
import PairIndex.Json.Printer

/-! Events as JSON objects. Words are written as texts, since a reader may hold numbers as doubles; the number of the
log line is a number. Keys stand in the order of their characters, so that the printed text is canonical. -/

namespace PairIndex

def wordJson (w : UInt64) : Json :=
  .str (Number.integerText w.toNat)

def signedWordJson (w : Int64) : Json :=
  .str (Number.integerText w.toInt)

def PublicKey.toJson (key : PublicKey) : Json :=
  .str key.toText

def EventMetadata.toJson (m : EventMetadata) : Json :=
  .obj [("pair", m.pair.toJson), ("seq_num", wordJson m.seqNum), ("signer", m.signer.toJson),
    ("timestamp", signedWordJson m.timestamp)]

def PairState.toJson (s : PairState) : Json :=
  .obj [("price0_ema", wordJson s.price0Ema), ("price1_ema", wordJson s.price1Ema), ("rate0", wordJson s.rate0),
    ("rate1", wordJson s.rate1), ("reserve0", wordJson s.reserve0), ("reserve1", wordJson s.reserve1),
    ("total_supply", wordJson s.totalSupply)]

def PositionState.toJson (s : PositionState) : Json :=
  .obj [("collateral0", wordJson s.collateral0), ("collateral1", wordJson s.collateral1),
    ("debt0_shares", wordJson s.debt0Shares), ("debt1_shares", wordJson s.debt1Shares)]

def Event.toJson (e : Event) : Json :=
  let name : Json := .str e.body.kind.name
  let logIndex : Json := .int e.logIndex
  match e.body with
  | .pairCreated token0 token1 pair creator timestamp =>
    .obj [("creator", creator.toJson), ("event", name), ("log_index", logIndex), ("pair", pair.toJson),
      ("timestamp", signedWordJson timestamp), ("token0", token0.toJson), ("token1", token1.toJson)]
  | .swap isToken0In amountIn amountOut fee state metadata =>
    .obj [("amount_in", wordJson amountIn), ("amount_out", wordJson amountOut), ("event", name),
      ("fee", wordJson fee), ("is_token0_in", .bool isToken0In), ("log_index", logIndex),
      ("metadata", metadata.toJson), ("state", state.toJson)]
  | .mint amount0 amount1 liquidity state metadata | .burn amount0 amount1 liquidity state metadata =>
    .obj [("amount0", wordJson amount0), ("amount1", wordJson amount1), ("event", name),
      ("liquidity", wordJson liquidity), ("log_index", logIndex), ("metadata", metadata.toJson),
      ("state", state.toJson)]
  | .adjustLiquidity amount0 amount1 liquidity metadata =>
    .obj [("amount0", wordJson amount0), ("amount1", wordJson amount1), ("event", name),
      ("liquidity", wordJson liquidity), ("log_index", logIndex), ("metadata", metadata.toJson)]
  | .updatePair state metadata =>
    .obj [("event", name), ("log_index", logIndex), ("metadata", metadata.toJson), ("state", state.toJson)]
  | .adjustCollateral amount0 amount1 metadata | .adjustDebt amount0 amount1 metadata =>
    .obj [("amount0", signedWordJson amount0), ("amount1", signedWordJson amount1), ("event", name),
      ("log_index", logIndex), ("metadata", metadata.toJson)]
  | .flashloan amount0 amount1 fee0 fee1 receiver metadata =>
    .obj [("amount0", wordJson amount0), ("amount1", wordJson amount1), ("event", name), ("fee0", wordJson fee0),
      ("fee1", wordJson fee1), ("log_index", logIndex), ("metadata", metadata.toJson),
      ("receiver", receiver.toJson)]
  | .positionCreated user pair position timestamp =>
    .obj [("event", name), ("log_index", logIndex), ("pair", pair.toJson), ("position", position.toJson),
      ("timestamp", signedWordJson timestamp), ("user", user.toJson)]
  | .positionUpdated position state metadata =>
    .obj [("event", name), ("log_index", logIndex), ("metadata", metadata.toJson), ("position", position.toJson),
      ("state", state.toJson)]
  | .positionLiquidated position liquidator collateral0 collateral1 debt0 debt1 price bonus state metadata =>
    .obj [("collateral0_liquidated", wordJson collateral0), ("collateral1_liquidated", wordJson collateral1),
      ("collateral_price", wordJson price), ("debt0_liquidated", wordJson debt0),
      ("debt1_liquidated", wordJson debt1), ("event", name), ("liquidation_bonus_applied", wordJson bonus),
      ("liquidator", liquidator.toJson), ("log_index", logIndex), ("metadata", metadata.toJson),
      ("position", position.toJson), ("state", state.toJson)]

/-- The text that keeps all of an event. -/
def Event.rawText (e : Event) : String :=
  e.toJson.print

end PairIndex
