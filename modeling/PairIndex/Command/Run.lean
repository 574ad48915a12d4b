import PairIndex.Command.Arguments
import PairIndex.Json.Printer
import PairIndex.Service.Control
import PairIndex.Service.Lifecycle
import PairIndex.Settings.Basic

/-! Doing a command. Each command works with a service of its own; a backfill or a gap fill prints a line for each address
that it was done for. -/

namespace PairIndex

/-- How the program ends. -/
structure Ending where
  /-- Zero if all went well. -/
  code : Nat := 0
  /-- The lines that were printed. -/
  lines : List String := []
  /-- What went wrong. -/
  complaints : List String := []
  deriving DecidableEq, Repr

/-- What the settings lack for a command. Only the creation of tables needs no address. -/
def Settings.lacks? (s : Settings) : CommandName → Option String
  | .initDb => none
  | .run | .backfill | .gapFill =>
    if s.indexing.addresses.isEmpty then some "INDEXER_PROGRAM_ADDRESSES is required to index" else none

/-- What a new service attempts, as an attempt on its world. -/
def ServiceConfig.attempt {α : Type} (config : ServiceConfig) (attempt : Attempt Service α) : Attempt World α := fun world =>
  let (outcome, service) := attempt.outcome { config, world }
  (outcome, service.world)

/-- The ending after jobs with the given results. -/
def Ending.ofResults (results : List IngestResult) : Ending :=
  { code := if results.any (·.hasError) then 1 else 0
    lines := results.map fun result => (Json.obj result.members).print }

/-- Runs a job for one address, or for every watched one if none is given or the given one is empty. -/
def ServiceConfig.runOnce (config : ServiceConfig) (address : Option String)
    (job : String → Attempt Service IngestResult) : Attempt World Ending := do
  let addresses :=
    match address with
    | none => config.addresses
    | some address => if address.isEmpty then config.addresses else [address]
  let outcome ← config.attempt do
    let outcome ← (addresses.mapM job).settle
    ExceptT.lift Service.close
    return outcome
  match outcome with
  | .ok results => return .ofResults results
  | .error failure =>
    if failure.kind == .unknownAddress then return { code := 2, complaints := [failure.message] } else throw failure

/-- Runs the service until its work at the start is done. -/
def ServiceConfig.runThrough (config : ServiceConfig) : Attempt World Ending :=
  config.attempt do
    Service.start
    ExceptT.lift Service.startUpAll
    ExceptT.lift Service.stop
    return {}

/-- Does a command. It does nothing if the settings lack something for it. -/
def Command.execute (settings : Settings) (command : Command) : Attempt World Ending :=
  let config := settings.serviceConfig false
  match settings.lacks? command.name with
  | some reason => return { code := 2, complaints := [reason] }
  | none =>
    match command with
    | .run => config.runThrough
    | .backfill address request => config.runOnce address fun address => Service.backfill address request
    | .gapFill address => config.runOnce address Service.gapFill
    | .initDb => return {}

/-- What is said about a setting with a fault. -/
def FieldError.line (e : FieldError) : String :=
  e.name ++ ": " ++ e.fault.reason?.getD e.fault.name

/-- Does a command on a new store, with a recorded history as the ledger. -/
def Command.perform (command : Command) (settings : Settings) (history : String) : Ending :=
  match Json.parse history with
  | .error _ => { code := 2, complaints := ["the history is not valid JSON"] }
  | .ok value =>
    match RecordedLedger.ofJson value with
    | .error e => { code := 2, complaints := [e.message] }
    | .ok ledger =>
      match ((command.execute settings).outcome { ledger }).1 with
      | .ok ending => ending
      | .error failure => { code := 1, complaints := [failure.message] }

end PairIndex
