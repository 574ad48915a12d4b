import PairIndex.Json.Parser
import PairIndex.Service.Jobs
import PairIndex.Service.Report
import PairIndex.Text.Blank

/-! The control requests of a service. A request is first read and checked as a whole; only a request that passes starts a
job, so a rejected one changes nothing. -/

namespace PairIndex

/-- The answer to a control request. -/
structure ControlResponse where
  status : Nat
  /-- What is answered; nothing if there is no such request. -/
  body : Option Json := none

/-- Why a control request is rejected, and what is said about it. -/
inductive ControlError where
  /-- It is malformed. -/
  | rejected (message : String)
  /-- It cannot even be rejected. -/
  | escaped (failure : Failure)

/-- The members of a control request. A request without a body has none. -/
def readControlBody (body : ByteArray) : Except ControlError (List (String × Json)) :=
  if body.isEmpty then .ok []
  else
    match String.fromUTF8? body with
    | none => .error (.rejected "invalid json body")
    | some text =>
      match Json.parse text with
      | .error _ => .error (.rejected "invalid json body")
      | .ok (.obj members) => .ok members
      | .ok _ => .error (.rejected "json body must be an object")

/-- The number under a key, if there is one that is not absent. An infinite one is not rejected. -/
def controlNumber (members : List (String × Json)) (key : String) : Except ControlError (Option Int) :=
  let noInteger := ControlError.rejected (key ++ " must be an integer")
  match (Assoc.get? key members).getD .null with
  | .null => .ok none
  | .bool _ => .error noInteger
  | value =>
    match value.toInteger with
    | .ok n => if n < 0 then .error (.rejected (key ++ " must be non-negative")) else .ok (some n)
    | .error .infinite => .error (.escaped (Json.AccessError.failure .infinite))
    | .error _ => .error noInteger

/-- The address that a request is about: the only watched one unless it names another. -/
def controlAddress (watched : List String) (members : List (String × Json)) : Except ControlError String :=
  match (Assoc.get? "address" members).getD .null with
  | .null =>
    match watched with
    | [address] => .ok address
    | _ => .error (.rejected "address is required")
  | .str text =>
    let address := Text.trimText text
    if address.isEmpty then .error (.rejected "address must be a non-empty string") else .ok address
  | _ => .error (.rejected "address must be a non-empty string")

/-- Whether a request asks to walk past the watermark. -/
def controlReprocess (members : List (String × Json)) : Except ControlError Bool :=
  match (Assoc.get? "reprocess" members).getD (.bool false) with
  | .bool b => .ok b
  | _ => .error (.rejected "reprocess must be a boolean")

/-- The address and the backfill that a request asks for. -/
def readBackfill (watched : List String) (body : ByteArray) : Except ControlError (String × BackfillRequest) := do
  let members ← readControlBody body
  let address ← controlAddress watched members
  let fromSlot ← controlNumber members "from_slot"
  let toSlot ← controlNumber members "to_slot"
  let batchSize ← controlNumber members "batch_size"
  let reprocess ← controlReprocess members
  if batchSize = some 0 then throw (.rejected "batch_size must be positive")
  match fromSlot, toSlot with
  | some low, some high => if high < low then throw (.rejected "to_slot must not be below from_slot")
  | _, _ => pure ()
  return (address, { fromSlot, toSlot, reprocess, batchSize })

/-- The address whose gap fill a request asks for. -/
def readGapFill (watched : List String) (body : ByteArray) : Except ControlError String := do
  controlAddress watched (← readControlBody body)

/-- The members of a result that are answered. -/
def IngestResult.members (r : IngestResult) : List (String × Json) :=
  [("message", .str r.message), ("error", .ofText? r.error), ("processed", .int r.processed),
    ("failed", .int r.failed)]

namespace Service

/-- The answer to a request that did not lead to a job. -/
def refusal (status : Nat) (message : String) : ControlResponse :=
  { status, body := some (.obj [("message", .str message), ("error", .str message)]) }

/-- The answer with the result of a job. -/
def jobResponse (result : IngestResult) : ControlResponse :=
  { status := if result.busy then 409 else 200, body := some (.obj result.members) }

/-- Runs the job that a request asks for, if it asks for one. -/
def respond {α : Type} (request : Except ControlError α) (job : α → Attempt Service IngestResult) :
    Attempt Service ControlResponse := do
  match request with
  | .error (.rejected message) => return refusal 400 message
  | .error (.escaped failure) => throw failure
  | .ok asked =>
    match ← (job asked).settle with
    | .ok result => return jobResponse result
    | .error failure =>
      if failure.kind == .unknownAddress then return refusal 404 failure.message else throw failure

/-- Answers a request, whatever the bytes of its body are. -/
def receive (method path : String) (body : ByteArray) : Attempt Service ControlResponse := do
  let watched := (← get).config.addresses
  match path, method with
  | "/health", "GET" | "/health", "HEAD" =>
    let s ← get
    return { status := if s.isHealthy then 200 else 503, body := some s.health }
  | "/status", "GET" | "/status", "HEAD" =>
    let body ← ExceptT.lift status
    return { status := 200, body := some body }
  | "/backfill", "POST" =>
    respond (readBackfill watched body) fun (address, request) => backfill address request
  | "/gap-fill", "POST" => respond (readGapFill watched body) gapFill
  | "/health", _ | "/status", _ | "/backfill", _ | "/gap-fill", _ => return { status := 405 }
  | _, _ => return { status := 404 }

/-- Answers a request whose body is text. -/
def control (method path body : String) : Attempt Service ControlResponse :=
  receive method path body.toUTF8

end Service
end PairIndex
