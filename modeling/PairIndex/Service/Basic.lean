import PairIndex.Assoc
import PairIndex.Crawl.Run
import PairIndex.Live.Handler
import PairIndex.Live.Subscription

/-! The indexing service: it watches some addresses, crawls the history of each and follows its log, and keeps a record of
its jobs. What it works on is opened when it is first needed and closed when it stops; its record outlasts a stop. -/

namespace PairIndex

/-- Where a service stands. -/
inductive ServiceState where
  | stopped
  | running
  /-- It could not be started. -/
  | failed
  deriving DecidableEq, Repr, Inhabited

def ServiceState.name : ServiceState → String
  | .stopped => "stopped"
  | .running => "running"
  | .failed => "error"

def ServiceState.label : ServiceState → String
  | .stopped => "IndexerState.STOPPED"
  | .running => "IndexerState.RUNNING"
  | .failed => "IndexerState.ERROR"

/-- How a service works. -/
structure ServiceConfig where
  addresses : List String := []
  /-- What is written about a watched address when its watermark is opened. -/
  description : String := "Omnipair program"
  pageSize : Int := 1000
  batchSize : Int := 1000
  /-- How many signatures of an address may be ingested at the same time. -/
  concurrency : Nat := 10
  pageDelay : Rat := mkRat 1 10
  requestDelay : Rat := mkRat 1 10
  /-- Seconds between two rounds of gap fills. -/
  gapFillInterval : Int := 300
  /-- Whether to start without backfills. -/
  skipBackfill : Bool := false
  /-- The slot bound of the backfills at the start. -/
  backfillFromSlot : Option Int := none
  /-- Whether to follow the logs. -/
  live : Bool := true
  /-- Where logs are followed. -/
  feedUrl : String := ""
  commitment : String := "confirmed"
  fetchDelay : Rat := mkRat 3 2
  maxInFlight : Nat := 50
  /-- Where fetched transactions are cached. -/
  cacheUrl : Option String := none
  deriving Inhabited

/-- How an address is crawled. -/
def ServiceConfig.crawler (c : ServiceConfig) (address : String) : Crawler :=
  { address, description := c.description, pageSize := c.pageSize, batchSize := c.batchSize
    concurrency := c.concurrency, pageDelay := c.pageDelay, requestDelay := c.requestDelay }

/-- How announced transactions of an address are handled. -/
def ServiceConfig.handler (c : ServiceConfig) (address : String) : LiveHandler :=
  { address, fetchDelay := c.fetchDelay, maxInFlight := c.maxInFlight }

/-- How the log of an address is followed. -/
def ServiceConfig.subscriber (c : ServiceConfig) (address : String) : Subscriber :=
  { config := { url := c.feedUrl, address, commitment := c.commitment } }

inductive JobKind where
  | backfill
  | gapFill
  deriving DecidableEq, Repr

def jobName (kind : JobKind) (address : String) : String :=
  match kind with
  | .backfill => "backfill:" ++ address
  | .gapFill => "gap-fill:" ++ address

/-- What is known of the runs of a job. -/
structure JobRecord where
  message : String := ""
  error : Option String := none
  /-- Whether the job was ever run to its end. -/
  finished : Bool := false
  /-- How many runs ended with an error. -/
  errorCount : Nat := 0
  deriving DecidableEq, Repr, Inhabited

/-- Whether a run ended with an error; the empty text tells of none. -/
def IngestResult.hasError (result : IngestResult) : Bool :=
  result.error.any (!·.isEmpty)

/-- Whether the last run ended with an error. -/
def JobRecord.hasError (record : JobRecord) : Bool :=
  record.error.any (!·.isEmpty)

/-- The record after a run with the given result. -/
def JobRecord.note (record : JobRecord) (result : IngestResult) : JobRecord :=
  { message := result.message
    error := result.error
    finished := true
    errorCount := if result.hasError then record.errorCount + 1 else record.errorCount }

/-- What a service has done so far. -/
structure ServiceStats where
  /-- Whether the service was ever started. -/
  started : Bool := false
  backfills : Nat := 0
  gapFills : Nat := 0
  processed : Nat := 0
  errors : Nat := 0
  lastError : Option String := none
  deriving DecidableEq, Repr, Inhabited

/-- What serves one watched address. -/
structure Watch where
  crawler : Crawler
  /-- The log subscription, if logs are followed. -/
  subscriber : Option Subscriber := none
  live : LiveStats := {}

/-- A service and the world it works on. -/
structure Service where
  config : ServiceConfig := {}
  world : World := {}
  state : ServiceState := .stopped
  stats : ServiceStats := {}
  /-- Whether the database and the ledger are open. -/
  isOpen : Bool := false
  /-- What serves each watched address, while open. -/
  watched : List (String × Watch) := []
  jobs : List (String × JobRecord) := []
  /-- Addresses whose last job failed, with the reason. -/
  failedAddresses : List (String × String) := []
  /-- Addresses that a crawl is under way for. -/
  crawling : List String := []
  /-- Addresses whose work at the start is still to be done. -/
  startups : List String := []
  /-- Whether a stop was asked for. -/
  stopRequested : Bool := false
  /-- What a new log connection delivers before it falls silent. -/
  feed : List SocketEvent := []
  /-- The frames sent to follow logs. -/
  sent : List Json := []
  /-- How often the ledger was closed. -/
  ledgerCloses : Nat := 0

namespace Service

def isRunning (s : Service) : Bool :=
  s.state == .running

/-- An attempt on the world, with its outcome. -/
def onWorld {α : Type} (attempt : Attempt World α) : StateM Service (Except Failure α) := fun s =>
  let (outcome, world) := attempt.outcome s.world
  (outcome, { s with world })

end Service
end PairIndex
