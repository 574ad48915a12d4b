import PairIndex.Json.Basic
import PairIndex.Store.Basic

/-! Rows and tables as JSON. Numbers are written as texts; tables list their rows in the order of their keys, and tables
without rows are left out. -/

namespace PairIndex

namespace Json

/-- An integer as a text. -/
def ofAmount (n : Int) : Json :=
  .str (Number.integerText n)

/-- An integer as a text, or the absent value. -/
def ofAmount? : Option Int → Json
  | some n => ofAmount n
  | none => .null

/-- A moment as a text, or the absent value. -/
def ofMoment? : Option Moment → Json
  | some m => .str m.toText
  | none => .null

/-- A price as a text, or the absent value. -/
def ofPrice? : Option Price → Json
  | some p => .str p.toText
  | none => .null

/-- A truth value, or the absent value. -/
def ofBool? : Option Bool → Json
  | some b => .bool b
  | none => .null

end Json

def TransactionRow.toJson (r : TransactionRow) : Json :=
  .obj [("tx_signature", .str r.signature), ("slot", .ofAmount r.slot), ("block_time", .ofMoment? r.blockTime),
    ("pair_address", .ofText? r.pairAddress), ("user_address", .ofText? r.userAddress),
    ("transaction_type", .str r.type.name), ("status", .str r.status.name)]

def DetailRow.toJson (r : DetailRow) : Json :=
  .obj [("tx_signature", .str r.signature), ("log_index", .ofAmount r.logIndex), ("event_name", .str r.eventName),
    ("raw_event", .str r.rawEvent), ("pair_address", .ofText? r.pairAddress),
    ("position_address", .ofText? r.positionAddress), ("user_address", .ofText? r.userAddress),
    ("seq_num", .ofAmount? r.seqNum), ("amount0", .ofAmount? r.amount0), ("amount1", .ofAmount? r.amount1),
    ("amount_in", .ofAmount? r.amountIn), ("amount_out", .ofAmount? r.amountOut), ("fee", .ofAmount? r.fee),
    ("is_token0_in", .ofBool? r.isToken0In), ("liquidity", .ofAmount? r.liquidity),
    ("price0", .ofPrice? r.price0), ("price1", .ofPrice? r.price1), ("event_time", .ofMoment? r.eventTime)]

def SwapRow.toJson (r : SwapRow) : Json :=
  .obj [("pair_address", .str r.pairAddress), ("seq_num", .ofAmount r.seqNum), ("tx_signature", .str r.signature),
    ("user_address", .str r.userAddress), ("is_token0_in", .bool r.isToken0In), ("amount_in", .ofAmount r.amountIn),
    ("amount_out", .ofAmount r.amountOut), ("fee", .ofAmount r.fee), ("reserve0", .ofAmount r.reserve0),
    ("reserve1", .ofAmount r.reserve1), ("event_time", .ofMoment? r.eventTime)]

def LiquidityRow.toJson (r : LiquidityRow) : Json :=
  .obj [("pair_address", .str r.pairAddress), ("seq_num", .ofAmount r.seqNum), ("tx_signature", .str r.signature),
    ("user_address", .str r.userAddress), ("event_type", .str r.type.name), ("amount0", .ofAmount r.amount0),
    ("amount1", .ofAmount r.amount1), ("liquidity", .ofAmount r.liquidity), ("reserve0", .ofAmount? r.reserve0),
    ("reserve1", .ofAmount? r.reserve1), ("total_supply", .ofAmount? r.totalSupply),
    ("event_time", .ofMoment? r.eventTime)]

def PricePointRow.toJson (r : PricePointRow) : Json :=
  .obj [("pair_address", .str r.pairAddress), ("seq_num", .ofAmount r.seqNum), ("tx_signature", .str r.signature),
    ("price0", .ofPrice? r.price0), ("price1", .ofPrice? r.price1), ("reserve0", .ofAmount r.reserve0),
    ("reserve1", .ofAmount r.reserve1), ("event_time", .ofMoment? r.eventTime)]

/-- The members of a pair's amounts. -/
def PairAmounts.members (s : PairAmounts) : List (String × Json) :=
  [("reserve0", .ofAmount s.reserve0), ("reserve1", .ofAmount s.reserve1), ("total_supply", .ofAmount s.totalSupply),
    ("price0_ema", .ofAmount s.price0Ema), ("price1_ema", .ofAmount s.price1Ema), ("rate0", .ofAmount s.rate0),
    ("rate1", .ofAmount s.rate1)]

def PairStateRow.toJson (r : PairStateRow) : Json :=
  .obj ([("pair_address", .str r.pairAddress), ("seq_num", .ofAmount r.seqNum), ("tx_signature", .str r.signature)] ++
    r.state.members ++ [("event_time", .ofMoment? r.eventTime)])

def LiquidationRow.toJson (r : LiquidationRow) : Json :=
  .obj [("position_address", .str r.positionAddress), ("seq_num", .ofAmount r.seqNum),
    ("pair_address", .str r.pairAddress), ("tx_signature", .str r.signature), ("liquidator", .str r.liquidator),
    ("collateral0_liquidated", .ofAmount r.collateral0Liquidated),
    ("collateral1_liquidated", .ofAmount r.collateral1Liquidated), ("debt0_liquidated", .ofAmount r.debt0Liquidated),
    ("debt1_liquidated", .ofAmount r.debt1Liquidated), ("collateral_price", .ofAmount r.collateralPrice),
    ("liquidation_bonus_applied", .ofAmount r.liquidationBonusApplied), ("event_time", .ofMoment? r.eventTime)]

def PairRow.toJson (r : PairRow) : Json :=
  .obj ([("pair_address", .str r.pairAddress), ("token0", .ofText? r.token0), ("token1", .ofText? r.token1),
      ("creator", .ofText? r.creator)] ++ r.state.members ++
    [("latest_seq_num_applied", .ofAmount r.latestSeqNum), ("pair_created_at", .ofMoment? r.createdAt)])

def PositionRow.toJson (r : PositionRow) : Json :=
  .obj [("position_address", .str r.positionAddress), ("user_address", .ofText? r.userAddress),
    ("pair_address", .str r.pairAddress), ("collateral0", .ofAmount r.state.collateral0),
    ("collateral1", .ofAmount r.state.collateral1), ("debt0_shares", .ofAmount r.state.debt0Shares),
    ("debt1_shares", .ofAmount r.state.debt1Shares), ("liquidated", .bool r.liquidated),
    ("latest_seq_num_applied", .ofAmount r.latestSeqNum)]

def WatermarkRow.toJson (r : WatermarkRow) : Json :=
  .obj [("acct", .str r.account), ("latest_tx_sig", .ofText? r.latestSignature),
    ("first_tx_sig", .ofText? r.firstSignature), ("checked_up_to_slot", .ofAmount r.checkedUpToSlot),
    ("description", .str r.description), ("status", .str r.status.name), ("failure_log", .ofText? r.failureLog)]

namespace Table

/-- The order of keys that are texts. -/
def textOrder (a b : String) : Bool :=
  decide (a ≤ b)

/-- The order of keys that are a text and a number: by text, then by number. -/
def numberedOrder (a b : String × Int) : Bool :=
  decide (a.1 < b.1) || (a.1 == b.1 && decide (a.2 ≤ b.2))

/-- The rows of a table as objects, in the order of their keys. -/
def dump {κ α : Type} {key : α → κ} (t : Table key) (order : κ → κ → Bool) (toJson : α → Json) : List Json :=
  (t.rows.mergeSort fun a b => order (key a) (key b)).map toJson

end Table

/-- All tables with rows, by name. -/
def Store.dump (s : Store) : Json :=
  let tables : List (String × List Json) :=
    [("transactions", s.transactions.dump Table.textOrder TransactionRow.toJson),
      ("transaction_details", s.details.dump Table.numberedOrder DetailRow.toJson),
      ("swaps", s.swaps.dump Table.numberedOrder SwapRow.toJson),
      ("liquidity_events", s.liquidityChanges.dump Table.numberedOrder LiquidityRow.toJson),
      ("price_points", s.pricePoints.dump Table.numberedOrder PricePointRow.toJson),
      ("pair_state_points", s.pairStates.dump Table.numberedOrder PairStateRow.toJson),
      ("liquidations", s.liquidations.dump Table.numberedOrder LiquidationRow.toJson),
      ("pairs", s.pairs.dump Table.textOrder PairRow.toJson),
      ("user_positions", s.positions.dump Table.textOrder PositionRow.toJson),
      ("transaction_watchers", s.watermarks.dump Table.textOrder WatermarkRow.toJson)]
  .obj ((tables.filter (!·.2.isEmpty)).map fun (name, rows) => (name, .arr rows))

end PairIndex
