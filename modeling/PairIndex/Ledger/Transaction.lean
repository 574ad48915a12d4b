import PairIndex.Failure
import PairIndex.Json.Access
import PairIndex.Time.Calendar

/-! Transactions as the ledger tells them, and their JSON form, in which they are cached. -/

namespace PairIndex

/-- The failure that an access error is. -/
def Json.AccessError.failure (e : Json.AccessError) : Failure :=
  let kind : FailureKind :=
    match e with
    | .missingKey _ => .missingKey
    | .wrongType _ => .invalidType
    | .noMembers _ => .noMembers
    | .notInteger _ => .invalidValue
    | .infinite => .outOfRange
  ⟨kind, e.message⟩

/-- The failure that a time outside the calendar is. -/
def Moment.RangeError.failure (e : Moment.RangeError) : Failure :=
  let kind : FailureKind :=
    match e with
    | .year _ => .invalidValue
    | .calendar => .system
    | .clock => .outOfRange
  ⟨kind, e.message⟩

/-- An entry of the signature index. -/
structure SignatureInfo where
  signature : String
  slot : Int
  blockTime : Option Int := none
  /-- What went wrong on the ledger, absent if nothing did. -/
  err : Json := .null
  deriving Inhabited, Repr

/-- Whether the transaction did not take effect. -/
def SignatureInfo.isFailed (info : SignatureInfo) : Bool :=
  !info.err.isNull

/-- A transaction with its log. -/
structure LedgerTransaction where
  signature : String
  slot : Int
  blockTime : Option Int := none
  logs : List String := []
  /-- What went wrong on the ledger, absent if nothing did. -/
  err : Json := .null
  deriving Inhabited, Repr

namespace LedgerTransaction

def isFailed (tx : LedgerTransaction) : Bool :=
  !tx.err.isNull

def info (tx : LedgerTransaction) : SignatureInfo :=
  { signature := tx.signature, slot := tx.slot, blockTime := tx.blockTime, err := tx.err }

/-- The moment of a transaction's block, if its time is known. -/
def blockMoment (tx : LedgerTransaction) : Except Moment.RangeError (Option Moment) :=
  match tx.blockTime with
  | none => .ok none
  | some seconds => (Moment.ofSeconds seconds).map some

/-- A transaction as an object; what went wrong becomes a text. -/
def toJson (tx : LedgerTransaction) : Json :=
  .obj [("signature", .str tx.signature), ("slot", .int tx.slot),
    ("block_time", match tx.blockTime with | some t => .int t | none => .null),
    ("log_messages", .arr (tx.logs.map .str)),
    ("err", if tx.err.isNull then .null else .str tx.err.toText)]

def ofJson (value : Json) : Except Json.AccessError LedgerTransaction := do
  let signature := (← value.member "signature").toText
  let slot ← (← value.member "slot").toInteger
  let time ← value.optionalMember "block_time"
  let blockTime ← if time.isNull then pure none else some <$> time.toInteger
  let logs ← (← value.optionalMember "log_messages").itemsOrNone
  let err ← value.optionalMember "err"
  return { signature, slot, blockTime, logs := logs.map Json.toText, err }

end LedgerTransaction
end PairIndex
