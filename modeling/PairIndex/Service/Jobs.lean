import PairIndex.Service.Basic

/-! The jobs of a service. A failure that gets out of a crawl means that the store is out of reach: the address is marked
as failed, in the service at once and in the store as soon as that can be written, and its next job that goes through
takes the mark away. -/

namespace PairIndex.Service

/-- What is said about an address for a cache that cannot be used. -/
def unsupportedCache : Failure :=
  ⟨.invalidValue, "Redis URL must specify one of the following schemes (redis://, rediss://, unix://)"⟩

/-- Whether a cache can be at an address. -/
def isCacheUrl (url : String) : Bool :=
  ["redis://", "rediss://", "unix://"].any fun scheme => url.startsWith scheme

/-- What serves the watched addresses when the service is opened. -/
def watchesOf (c : ServiceConfig) : List (String × Watch) :=
  c.addresses.foldl (fun watched address =>
    let subscriber := if c.live then some (c.subscriber address) else none
    Assoc.set address { crawler := c.crawler address, subscriber } watched) []

/-- Opens what the service works on, unless it is open. -/
def ensureOpen : Attempt Service Unit := do
  let s ← get
  if s.isOpen then return ()
  if s.config.cacheUrl.any fun url => !url.isEmpty && !isCacheUrl url then throw unsupportedCache
  set { s with isOpen := true, watched := watchesOf s.config }

/-- Closes what the service works on, if it is open. -/
def release : StateM Service Unit :=
  modify fun s =>
    { s with isOpen := false, watched := [], ledgerCloses := if s.isOpen then s.ledgerCloses + 1 else s.ledgerCloses }

/-- Writes the marks of all failed addresses. If that fails they are written later. -/
def flushMarks : StateM Service Unit := do
  let s ← get
  if s.isOpen && !s.failedAddresses.isEmpty then
    let _ ← onWorld (World.session (s.failedAddresses.forM fun (address, log) => Session.markFailed address log))

/-- Marks an address as failed. -/
def markFailed (address log : String) : StateM Service Unit := do
  modify fun s => { s with failedAddresses := Assoc.set address log s.failedAddresses }
  flushMarks

/-- Takes the mark of an address away, if that can be written. -/
def markActive (address : String) : StateM Service Unit := do
  if (← get).isOpen then
    match ← onWorld (World.session (Session.setWatchStatus address .active none)) with
    | .ok _ => modify fun s => { s with failedAddresses := Assoc.erase address s.failedAddresses }
    | .error _ => return ()

/-- The result of a job that a failure got out of. -/
def failedResult (name : String) (failure : Failure) : IngestResult :=
  { message := "Job " ++ name ++ " failed", error := some failure.message }

/-- The result of a crawl that has ended, with the marks brought up to date. -/
def settleJob (name address : String) : Except Failure IngestResult → StateM Service IngestResult
  | .error failure => do
    modify fun s =>
      { s with stats := { s.stats with errors := s.stats.errors + 1, lastError := some failure.message } }
    markFailed address (name ++ ": " ++ failure.message)
    return failedResult name failure
  | .ok result => do
    if Assoc.mem address (← get).failedAddresses then markActive address
    return result

/-- Enters a job in the record, unless it is there. -/
def registerJob (name : String) : StateM Service Unit :=
  modify fun s => if Assoc.mem name s.jobs then s else { s with jobs := Assoc.set name {} s.jobs }

/-- Runs a job. A busy one leaves no result in the record. -/
def runJob (name address : String) (job : Attempt World IngestResult) : StateM Service IngestResult := do
  registerJob name
  let result ← settleJob name address (← onWorld job)
  if result.busy then return result
  modify fun s =>
    { s with
      jobs := Assoc.set name (((Assoc.get? name s.jobs).getD {}).note result) s.jobs
      stats := { s.stats with processed := s.stats.processed + result.processed } }
  return result

/-- What is said about an address that is not watched. -/
def notWatched (address : String) : Failure :=
  ⟨.unknownAddress, address ++ " is not a watched address"⟩

/-- Runs a job with the crawler of an address, which is busy while a crawl is under way. -/
def runCrawl (kind : JobKind) (address : String) (job : Crawler → Attempt World IngestResult) :
    Attempt Service IngestResult := do
  ensureOpen
  let s ← get
  match Assoc.get? address s.watched with
  | none => throw (notWatched address)
  | some watch =>
    let crawl := if s.crawling.contains address then pure watch.crawler.busyResult else job watch.crawler
    runJob (jobName kind address) address crawl

/-- Runs a backfill of a watched address. -/
def backfill (address : String) (request : BackfillRequest) : Attempt Service IngestResult := do
  let result ← runCrawl .backfill address fun crawler => crawler.backfill request
  if !result.busy then
    modify fun s => { s with stats := { s.stats with backfills := s.stats.backfills + 1 } }
  return result

/-- Runs a gap fill of a watched address. -/
def gapFill (address : String) : Attempt Service IngestResult := do
  let result ← runCrawl .gapFill address Crawler.gapFill
  if !result.busy then
    modify fun s => { s with stats := { s.stats with gapFills := s.stats.gapFills + 1 } }
  return result

end PairIndex.Service
