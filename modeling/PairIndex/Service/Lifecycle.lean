import PairIndex.Service.Jobs

/-! Starting and stopping a service. After a start each watched address is backfilled and then followed; from time to time
all of them are gap filled. A stop lets work that has begun come to its end. -/

namespace PairIndex.Service

/-- What is said about a start at the wrong time. -/
def cannotStart (state : ServiceState) : Failure :=
  ⟨.wrongState, "Cannot start indexer in state " ++ state.label⟩

/-- Starts the service. The work at the start is left to be done. -/
def start : Attempt Service Unit := do
  let state := (← get).state
  if state ≠ .stopped then throw (cannotStart state)
  modify fun s => { s with stopRequested := false }
  match ← ensureOpen.settle with
  | .ok _ =>
    modify fun s =>
      { s with state := .running, stats := { s.stats with started := true }, startups := s.watched.map (·.1) }
  | .error failure =>
    modify fun s => { s with state := .failed, stats := { s.stats with lastError := some failure.message } }
    ExceptT.lift release
    throw failure

/-- Changes what serves an address. The frames that its subscriber sent go to the service. -/
def setWatch (address : String) (watch : Watch) : StateM Service Unit :=
  modify fun s =>
    let sent := (watch.subscriber.map (·.sent)).getD []
    let watch := { watch with subscriber := watch.subscriber.map ({ · with sent := [] }) }
    { s with sent := s.sent ++ sent, watched := Assoc.set address watch s.watched }

/-- Follows the log of an address and handles what is announced. -/
def follow (address : String) (watch : Watch) (subscriber : Subscriber) : StateM Service Unit := do
  let s ← get
  let subscriber := subscriber.follow (fun _ => {}) s.feed
  let signatures := subscriber.received.map (·.signature)
  let (live, world) := ((s.config.handler address).handleAll signatures watch.live).run s.world
  set { s with world }
  setWatch address { watch with subscriber := some { subscriber with received := [] }, live }

/-- Does the work at the start for one address. -/
def startUp (address : String) : StateM Service Unit := do
  let config := (← get).config
  if !config.skipBackfill then
    let _ ← (backfill address { fromSlot := config.backfillFromSlot }).run
  let s ← get
  if !s.stopRequested then
    match Assoc.get? address s.watched with
    | some watch =>
      match watch.subscriber with
      | some subscriber => follow address watch subscriber
      | none => return ()
    | none => return ()

/-- Does the work at the start that is left. -/
def startUpAll : StateM Service Unit := do
  let addresses := (← get).startups
  modify fun s => { s with startups := [] }
  addresses.forM startUp

/-- A round of gap fills of all watched addresses. Marks that could not be written are tried first. -/
def tick : StateM Service Unit := do
  if (← get).isRunning then
    flushMarks
    for address in (← get).watched.map (·.1) do
      let _ ← (gapFill address).run

/-- Gives up all log subscriptions. -/
def unsubscribeAll : StateM Service Unit := do
  for (address, watch) in (← get).watched do
    setWatch address { watch with subscriber := watch.subscriber.map (·.stop) }

/-- Stops the service: crawls end at their next chunk, and work at the start that is left finds nothing more to do. -/
def stop : StateM Service Unit := do
  if (← get).state ≠ .stopped then
    modify fun s => { s with stopRequested := true, world := { s.world with stopped := true } }
    unsubscribeAll
    startUpAll
    release
    modify fun s => { s with state := .stopped, world := { s.world with stopped := false } }

/-- Closes what jobs opened without a start. -/
def close : StateM Service Unit := do
  if (← get).state = .stopped then release

end PairIndex.Service
