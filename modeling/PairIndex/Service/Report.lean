import PairIndex.Json.Access
import PairIndex.Service.Basic
import PairIndex.Store.Dump

/-! What a service tells about itself: whether it is healthy, and how far each watched address has got. -/

namespace PairIndex

/-- What stands for a moment of the service's own clock; no answer depends on which moment it is. -/
def someMoment : Json :=
  .str "<time>"

/-- A job's record as an object. -/
def JobRecord.toJson (name : String) (record : JobRecord) : Json :=
  let moment := if record.finished then someMoment else .null
  .obj [("name", .str name), ("message", .str record.message), ("error", .ofText? record.error),
    ("started_at", moment), ("finished_at", moment), ("error_count", .int record.errorCount)]

/-- A watermark as a status tells it. -/
def WatermarkRow.report (r : WatermarkRow) : Json :=
  .obj [("latest_tx_sig", .ofText? r.latestSignature), ("first_tx_sig", .ofText? r.firstSignature),
    ("checked_up_to_slot", .int r.checkedUpToSlot), ("status", .str r.status.name),
    ("failure_log", .ofText? r.failureLog), ("updated_at", someMoment)]

namespace Service

/-- The subscriptions and where each stands. -/
def subscriptions (s : Service) : List (String × ConnectionState) :=
  s.watched.filterMap fun (address, watch) => watch.subscriber.map fun subscriber => (address, subscriber.state)

/-- Whether the service runs, every subscription is connected, no job ended with an error and no address is marked. -/
def isHealthy (s : Service) : Bool :=
  s.isRunning && s.subscriptions.all (fun p => p.2 == .connected) && !s.jobs.any (·.2.hasError) &&
    s.failedAddresses.isEmpty

/-- The records of the jobs, by name. -/
def jobsByName (s : Service) : List (String × JobRecord) :=
  s.jobs.mergeSort fun a b => decide (a.1 ≤ b.1)

/-- The health of the service. -/
def health (s : Service) : Json :=
  .obj [("healthy", .bool s.isHealthy), ("state", .str s.state.name),
    ("subscriptions", .obj (s.subscriptions.map fun (address, state) => (address, .str state.name))),
    ("jobs", .obj (s.jobsByName.map fun (name, record) => (name, record.toJson name))),
    ("failed_addresses", .obj (s.failedAddresses.map fun (address, log) => (address, .str log)))]

/-- The record of a job as an object, if there is one. -/
def jobJson (s : Service) (kind : JobKind) (address : String) : Json :=
  let name := jobName kind address
  ((Assoc.get? name s.jobs).map (·.toJson name)).getD .null

/-- Where the subscription of a watched address stands. -/
def subscriptionJson (subscriber : Subscriber) : Json :=
  .obj [("state", .str subscriber.state.name), ("notifications_received", .int subscriber.notifications),
    ("reconnect_count", .int subscriber.reconnects), ("last_error", .ofText? subscriber.lastError)]

/-- What was done with announced transactions. -/
def liveJson (stats : LiveStats) : Json :=
  .obj [("handled", .int stats.handled), ("failed", .int stats.failed), ("in_flight", .int 0),
    ("last_signature", .ofText? stats.lastSignature)]

/-- How far an address has got. -/
def addressJson (s : Service) (watermark : Option WatermarkRow) (address : String) : Json :=
  let followed :=
    match (Assoc.get? address s.watched).bind fun watch => watch.subscriber.map ((·, watch.live)) with
    | some (subscriber, live) => [("subscription", subscriptionJson subscriber), ("live", liveJson live)]
    | none => []
  .obj ([("watermark", (watermark.map (·.report)).getD .null), ("backfill", s.jobJson .backfill address),
    ("gap_fill", s.jobJson .gapFill address), ("crawling", .bool (s.crawling.contains address))] ++ followed)

/-- The status of the service, given the watermarks or why they cannot be read. -/
def statusJson (s : Service) (watermarks : Except Failure (List WatermarkRow)) : Json :=
  let rows := watermarks.toOption.getD []
  let error := match watermarks with | .ok _ => none | .error failure => some failure.message
  let addresses := s.config.addresses.foldl (fun told address =>
    Assoc.set address (s.addressJson (rows.find? (·.account == address)) address) told) []
  .obj [("state", .str s.state.name), ("started_at", if s.stats.started then someMoment else .null),
    ("backfills_run", .int s.stats.backfills), ("gap_fills_run", .int s.stats.gapFills),
    ("transactions_processed", .int s.stats.processed), ("errors", .int s.stats.errors),
    ("last_error", .ofText? s.stats.lastError), ("database_error", .ofText? error), ("addresses", .obj addresses)]

/-- The status of the service. The watermarks are read while the database is open. -/
def status : StateM Service Json := do
  let watermarks ← if (← get).isOpen then onWorld (World.session Session.allWatermarks) else pure (.ok [])
  return (← get).statusJson watermarks

end Service
end PairIndex
