import PairIndex.Service.Basic
import PairIndex.Settings.Environment

/-! The settings of the program, the bounds they have to keep and their defaults. Settings come in four groups and a rest;
the first group with a fault is reported alone. -/

namespace PairIndex

/-- How the database is reached. -/
structure DatabaseSettings where
  url : String
  poolSize : Int

/-- How fetched transactions are cached. -/
structure CacheSettings where
  url : Option String
  ttl : Int

/-- How the ledger is reached. -/
structure LedgerSettings where
  rpcUrl : String
  feedUrl : Option String
  commitment : String
  timeout : Double
  requestsPerSecond : Double

/-- How addresses are crawled and followed. -/
structure IndexingSettings where
  addresses : List String
  pageSize : Int
  batchSize : Int
  concurrency : Int
  pageDelay : Double
  requestDelay : Double
  gapFillInterval : Int
  fetchDelay : Double
  maxInFlight : Int
  skipBackfill : Bool
  backfillFromSlot : Option Int

/-- How much is logged. -/
inductive LogLevel where
  | debug
  | info
  | warning
  | error
  | critical
  deriving DecidableEq, Repr

namespace LogLevel

def name : LogLevel → String
  | .debug => "DEBUG"
  | .info => "INFO"
  | .warning => "WARNING"
  | .error => "ERROR"
  | .critical => "CRITICAL"

def rank : LogLevel → Nat
  | .debug => 10
  | .info => 20
  | .warning => 30
  | .error => 40
  | .critical => 50

def read (text : String) : Except FieldFault LogLevel :=
  match [LogLevel.debug, .info, .warning, .error, .critical].find? (·.name == text) with
  | some level => .ok level
  | none => .error .notListed

end LogLevel

structure Settings where
  database : DatabaseSettings
  cache : CacheSettings
  ledger : LedgerSettings
  indexing : IndexingSettings
  logLevel : LogLevel
  controlHost : String
  controlPort : Int

namespace DatabaseSettings

def read (e : Environment) : Checked DatabaseSettings :=
  DatabaseSettings.mk
    <$> e.required "DATABASE_URL" (Field.startingWith
      ["postgresql://", "postgresql+asyncpg://", "sqlite+aiosqlite://"]
      "DATABASE_URL must be a PostgreSQL or sqlite+aiosqlite connection string")
    <*> e.setting "DATABASE_POOL_SIZE" 5 (Field.integer ⟨1, some 100⟩)

/-- The address of the database for the driver that is used. -/
def normalizeUrl (url : String) : String :=
  match "postgresql://".toList.isPrefixOf? url.toList with
  | some rest => "postgresql+asyncpg://" ++ String.ofList rest
  | none => url

end DatabaseSettings

def CacheSettings.read (e : Environment) : Checked CacheSettings :=
  CacheSettings.mk
    <$> e.optional "REDIS_URL" (Field.startingWith ["redis://", "rediss://"] "REDIS_URL must start with redis://")
    <*> e.setting "REDIS_TRANSACTION_CACHE_TTL_SECONDS" 86400 (Field.integer ⟨60, some 2592000⟩)

def LedgerSettings.read (e : Environment) : Checked LedgerSettings :=
  LedgerSettings.mk
    <$> e.setting "SOLANA_RPC_URL" "https://api.mainnet-beta.solana.com"
      (Field.startingWith ["http://", "https://"] "SOLANA_RPC_URL must be an HTTP(S) endpoint")
    <*> e.optional "SOLANA_WS_URL"
      (Field.startingWith ["ws://", "wss://"] "SOLANA_WS_URL must start with ws:// or wss://")
    <*> e.setting "SOLANA_COMMITMENT" "confirmed" (Field.oneOf ["processed", "confirmed", "finalized"])
    <*> e.setting "SOLANA_REQUEST_TIMEOUT_SECONDS" (.ofInt 30) (Field.number ⟨true, 300⟩)
    <*> e.setting "SOLANA_MAX_REQUESTS_PER_SECOND" (.ofInt 10) (Field.number ⟨true, 1000⟩)

/-- Where logs are followed: as set, or at the address that belongs to that of the calls. -/
def LedgerSettings.effectiveFeedUrl (s : LedgerSettings) : String :=
  let derived :=
    match "https://".toList.isPrefixOf? s.rpcUrl.toList with
    | some rest => "wss://" ++ String.ofList rest
    | none => "ws://" ++ String.ofList (s.rpcUrl.toList.drop "http://".length)
  match s.feedUrl with
  | some url => if url.isEmpty then derived else url
  | none => derived

def IndexingSettings.read (e : Environment) : Checked IndexingSettings :=
  IndexingSettings.mk
    <$> e.setting "INDEXER_PROGRAM_ADDRESSES" [] (fun text => .ok (Field.commaList text))
    <*> e.setting "INDEXER_PAGE_SIZE" 1000 (Field.integer ⟨1, some 1000⟩)
    <*> e.setting "INDEXER_BATCH_SIZE" 1000 (Field.integer ⟨1, some 100000⟩)
    <*> e.setting "INDEXER_CONCURRENCY" 10 (Field.integer ⟨1, some 200⟩)
    <*> e.setting "INDEXER_PAGE_DELAY_SECONDS" (.ofRat (mkRat 1 10)) (Field.number ⟨false, 60⟩)
    <*> e.setting "INDEXER_REQUEST_DELAY_SECONDS" (.ofRat (mkRat 1 10)) (Field.number ⟨false, 60⟩)
    <*> e.setting "INDEXER_GAP_FILL_INTERVAL_SECONDS" 300 (Field.integer ⟨5, some 86400⟩)
    <*> e.setting "INDEXER_LIVE_FETCH_DELAY_SECONDS" (.ofRat (mkRat 3 2)) (Field.number ⟨false, 60⟩)
    <*> e.setting "INDEXER_LIVE_MAX_IN_FLIGHT" 50 (Field.integer ⟨1, some 10000⟩)
    <*> e.setting "INDEXER_SKIP_BACKFILL" false Field.boolean
    <*> e.optional "INDEXER_BACKFILL_FROM_SLOT" (Field.integer ⟨0, none⟩)

namespace Settings

def names : List String :=
  ["DATABASE_URL", "DATABASE_POOL_SIZE", "REDIS_URL", "REDIS_TRANSACTION_CACHE_TTL_SECONDS", "SOLANA_RPC_URL",
    "SOLANA_WS_URL", "SOLANA_COMMITMENT", "SOLANA_REQUEST_TIMEOUT_SECONDS", "SOLANA_MAX_REQUESTS_PER_SECOND",
    "INDEXER_PROGRAM_ADDRESSES", "INDEXER_PAGE_SIZE", "INDEXER_BATCH_SIZE", "INDEXER_CONCURRENCY",
    "INDEXER_PAGE_DELAY_SECONDS", "INDEXER_REQUEST_DELAY_SECONDS", "INDEXER_GAP_FILL_INTERVAL_SECONDS",
    "INDEXER_LIVE_FETCH_DELAY_SECONDS", "INDEXER_LIVE_MAX_IN_FLIGHT", "INDEXER_SKIP_BACKFILL",
    "INDEXER_BACKFILL_FROM_SLOT", "LOG_LEVEL", "CONTROL_HOST", "CONTROL_PORT"]

def read (e : Environment) : Except (List FieldError) Settings := do
  let database ← (DatabaseSettings.read e).toExcept
  let cache ← (CacheSettings.read e).toExcept
  let ledger ← (LedgerSettings.read e).toExcept
  let indexing ← (IndexingSettings.read e).toExcept
  (Settings.mk database cache ledger indexing
    <$> e.setting "LOG_LEVEL" .info LogLevel.read
    <*> e.setting "CONTROL_HOST" "0.0.0.0" Except.ok
    <*> e.setting "CONTROL_PORT" 8080 (Field.integer ⟨1, some 65535⟩)).toExcept

/-- Seconds as an exact number. -/
def seconds (x : Double) : Rat :=
  x.toRat?.getD 0

/-- The service that the settings describe. -/
def serviceConfig (s : Settings) (live : Bool) : ServiceConfig :=
  { addresses := s.indexing.addresses
    pageSize := s.indexing.pageSize
    batchSize := s.indexing.batchSize
    concurrency := s.indexing.concurrency.toNat
    pageDelay := seconds s.indexing.pageDelay
    requestDelay := seconds s.indexing.requestDelay
    gapFillInterval := s.indexing.gapFillInterval
    skipBackfill := s.indexing.skipBackfill
    backfillFromSlot := s.indexing.backfillFromSlot
    live
    feedUrl := s.ledger.effectiveFeedUrl
    commitment := s.ledger.commitment
    fetchDelay := seconds s.indexing.fetchDelay
    maxInFlight := s.indexing.maxInFlight.toNat
    cacheUrl := s.cache.url }

end Settings
end PairIndex
