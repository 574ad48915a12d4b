import PairIndex.Failure
import PairIndex.Number.Power
import PairIndex.Store.Rows
import PairIndex.Store.Table

/-! The store: its tables, and sessions over them. A session is one transaction: it is committed as a whole, and if it
fails it leaves nothing behind. -/

namespace PairIndex

/-- The tables. -/
structure Store where
  transactions : Table TransactionRow.key := .empty
  details : Table DetailRow.key := .empty
  swaps : Table SwapRow.key := .empty
  liquidityChanges : Table LiquidityRow.key := .empty
  pricePoints : Table PricePointRow.key := .empty
  pairStates : Table PairStateRow.key := .empty
  liquidations : Table LiquidationRow.key := .empty
  pairs : Table PairRow.key := .empty
  positions : Table PositionRow.key := .empty
  watermarks : Table WatermarkRow.key := .empty
  deriving Inhabited

def Store.empty : Store := {}

/-- Statements of one transaction. -/
abbrev Session := StateT Store (Except Failure)

namespace Session

/-- Whether a number fits a column of sixty-four bits. -/
def fitsColumn (n : Int) : Bool :=
  decide (-(Number.twoTo 63 : Int) ≤ n ∧ n < Number.twoTo 63)

/-- What is said about a number that fits no column. -/
def columnOverflow : Failure :=
  ⟨.outOfRange, "Python int too large to convert to SQLite INTEGER"⟩

/-- Refuses a number that fits no column. -/
def checkColumn (n : Int) : Session Unit :=
  if fitsColumn n then pure () else throw columnOverflow

/-- Refuses a number that is there and fits no column. -/
def checkColumn? : Option Int → Session Unit
  | some n => checkColumn n
  | none => pure ()

end Session

/-- A store, and what the next sessions will meet: nothing, or a failure that the store reports instead. -/
structure Database where
  store : Store := {}
  outlook : List (Option Failure) := []
  deriving Inhabited

namespace Database

/-- Whether a failure is still to come. -/
def failurePending (d : Database) : Bool :=
  d.outlook.any (·.isSome)

/-- An outlook in which `after` sessions succeed and then `times` sessions fail. -/
def setFailure (d : Database) (failure : Failure) (after times : Nat) : Database :=
  { d with outlook := List.replicate after none ++ List.replicate times (some failure) }

/-- Runs a session: its changes are kept if it succeeds, and none is if it fails. -/
def transact {α : Type} (session : Session α) (d : Database) : Except Failure α × Database :=
  let d' := { d with outlook := d.outlook.tail }
  match d.outlook.head?.join with
  | some failure => (.error failure, d')
  | none =>
    match session.run d.store with
    | .ok (a, store) => (.ok a, { d' with store })
    | .error failure => (.error failure, d')

/-- A session as an attempt on a database. -/
def session {α : Type} (s : Session α) : Attempt Database α :=
  fun d => transact s d

end Database
end PairIndex
