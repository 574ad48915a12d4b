import PairIndex.Json.Parser
import PairIndex.Ledger.Transaction

/-! Frames of a log subscription. A frame rejects the subscription, confirms it, announces a transaction, or means
nothing; `readFrame` tells which, and `LogNotification.ofJson` reads an announcement. -/

namespace PairIndex

/-- The announcement of a transaction that mentions an address. -/
structure LogNotification where
  signature : String
  slot : Int
  logs : List Json := []
  err : Json := .null
  deriving Inhabited, Repr

def LogNotification.ofJson (data : Json) : Except Json.AccessError LogNotification := do
  let result ← (← data.member "params").member "result"
  let value ← result.member "value"
  let signature := (← value.member "signature").toText
  let slot ← (← (← result.member "context").member "slot").toInteger
  let logs ← (← value.optionalMember "logs").itemsOrNone
  let err ← value.optionalMember "err"
  return { signature, slot, logs, err }

/-- What a frame means. -/
inductive Frame where
  /-- Nothing that matters. -/
  | ignored
  /-- The subscription has this number. -/
  | subscribed (id : Int)
  /-- A transaction is announced. -/
  | notified (notification : LogNotification)

/-- Whether an announcement that cannot be read is dropped. One whose slot is infinite is not. -/
def Json.AccessError.isDropped : Json.AccessError → Bool
  | .missingKey _ | .wrongType _ | .notInteger _ => true
  | .noMembers _ | .infinite => false

/-- The announcement in a frame, or nothing if it cannot be read. -/
def readNotification (data : Json) : Except Failure Frame :=
  match LogNotification.ofJson data with
  | .ok notification => .ok (.notified notification)
  | .error e => if e.isDropped then .ok .ignored else .error e.failure

/-- The failure of a rejected subscription. -/
def rejection (reason : Json) : Failure :=
  ⟨.subscription, "Subscription rejected: " ++ reason.toText⟩

/-- What a frame's value means. -/
def Frame.ofJson (data : Json) : Except Failure Frame := do
  let orFail {α : Type} (outcome : Except Json.AccessError α) : Except Failure α :=
    outcome.mapError (·.failure)
  if ← orFail (data.mentions "error") then
    throw (rejection (← orFail (data.member "error")))
  let hasResult ← orFail (data.mentions "result")
  let hasId ← if hasResult then orFail (data.mentions "id") else pure false
  if hasId then
    return .subscribed (← orFail do (← data.member "result").toInteger)
  match ← orFail (data.optionalMember "method") with
  | .str "logsNotification" => readNotification data
  | _ => return .ignored

/-- What the text of a frame means; a text that is not JSON means nothing. -/
def readFrame (text : String) : Except Failure Frame :=
  match Json.parse text with
  | .error .malformed => .ok .ignored
  | .error (.tooManyDigits digits) => .error ⟨.invalidValue, Json.tooManyDigitsMessage digits⟩
  | .ok data => Frame.ofJson data

end PairIndex
