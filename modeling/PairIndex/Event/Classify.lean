import PairIndex.Event.Basic

/-! The type of a transaction. Kinds of events are looked for in a fixed order of importance, and the first event of the
first kind that is found decides: it is the transaction's primary event. -/

namespace PairIndex

/-- What a transaction did. -/
inductive TransactionType where
  | swap
  | borrow
  | repay
  | addCollateral
  | removeCollateral
  | addLiquidity
  | removeLiquidity
  | liquidate
  | other
  deriving DecidableEq, Repr

def TransactionType.name : TransactionType → String
  | .swap => "swap"
  | .borrow => "borrow"
  | .repay => "repay"
  | .addCollateral => "add_collateral"
  | .removeCollateral => "remove_collateral"
  | .addLiquidity => "add_liquidity"
  | .removeLiquidity => "remove_liquidity"
  | .liquidate => "liquidate"
  | .other => "other"

def TransactionType.all : List TransactionType :=
  [.swap, .borrow, .repay, .addCollateral, .removeCollateral, .addLiquidity, .removeLiquidity, .liquidate, .other]

def TransactionType.ofName? (name : String) : Option TransactionType :=
  TransactionType.all.find? (·.name == name)

/-- The direction of a change of liquidity: minting adds, an adjustment adds if any amount grows, all else removes. -/
def EventBody.liquidityChange : EventBody → TransactionType
  | .mint .. => .addLiquidity
  | .adjustLiquidity amount0 amount1 _ _ => if 0 < amount0 ∨ 0 < amount1 then .addLiquidity else .removeLiquidity
  | _ => .removeLiquidity

/-- Whether an adjustment of debt or of collateral makes any amount grow. -/
def EventBody.grows : EventBody → Bool
  | .adjustDebt amount0 amount1 _ | .adjustCollateral amount0 amount1 _ => decide (0 < amount0 ∨ 0 < amount1)
  | _ => false

/-- The events of some kinds, in their order. -/
def ofKinds (kinds : List EventKind) (events : List Event) : List Event :=
  events.filter fun e => kinds.contains e.body.kind

/-- The type of a transaction with the given events, and the event that decided it. -/
def classify (events : List Event) : TransactionType × Option Event :=
  match ofKinds [.positionLiquidated] events with
  | first :: _ => (.liquidate, some first)
  | [] =>
  match ofKinds [.adjustDebt] events with
  | first :: _ => (if first.body.grows then .borrow else .repay, some first)
  | [] =>
  match ofKinds [.adjustCollateral] events with
  | first :: _ => (if first.body.grows then .addCollateral else .removeCollateral, some first)
  | [] =>
  match ofKinds [.swap] events with
  | first :: _ => (.swap, some first)
  | [] =>
  match ofKinds [.mint, .burn, .adjustLiquidity] events with
  | first :: rest =>
    -- Liquidity that is minted decides over liquidity that is burnt or adjusted before it.
    match ofKinds [.mint] (first :: rest) with
    | mint :: _ => (.addLiquidity, some mint)
    | [] => (first.body.liquidityChange, some first)
  | [] => (.other, events.head?)

theorem classify_nil : classify [] = (.other, none) :=
  rfl

end PairIndex
