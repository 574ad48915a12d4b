import PairIndex.Crawl.World
import PairIndex.Ingest.Transaction

/-! Handling announced transactions: each is fetched after a delay and processed. What fails is counted and left for the
next gap fill; the watermark is not touched. -/

namespace PairIndex

/-- What a handler has done so far. -/
structure LiveStats where
  handled : Nat := 0
  failed : Nat := 0
  lastSignature : Option String := none
  lastError : Option String := none
  deriving DecidableEq, Repr, Inhabited

/-- The record after one more outcome. -/
def LiveStats.record (stats : LiveStats) (signature : String) :
    Except Failure (Option ProcessResult) → LiveStats
  | .error failure => { stats with failed := stats.failed + 1, lastError := some failure.message }
  | .ok none => { stats with failed := stats.failed + 1 }
  | .ok (some result) =>
    { stats with
      handled := stats.handled + 1
      failed := if result.isOk then stats.failed else stats.failed + 1
      lastSignature := some signature }

/-- How announced transactions of an address are handled. -/
structure LiveHandler where
  address : String
  /-- The delay before a transaction is fetched, in seconds. -/
  fetchDelay : Rat := mkRat 3 2
  /-- How many transactions may be under way at once. -/
  maxInFlight : Nat := 50

namespace LiveHandler

/-- Fetches and processes an announced transaction, if the ledger knows it. -/
def ingest (h : LiveHandler) (signature : String) : Attempt World (Option ProcessResult) := do
  if h.fetchDelay ≠ 0 then World.sleep h.fetchDelay
  match ← World.fetch signature with
  | none => return none
  | some tx => some <$> World.onDatabase (processTransaction tx h.address)

/-- Handles one announcement; no failure gets out. -/
def handle (h : LiveHandler) (signature : String) (stats : LiveStats) : StateM World LiveStats := do
  let outcome ← (h.ingest signature).run
  return stats.record signature outcome

def handleAll (h : LiveHandler) (signatures : List String) (stats : LiveStats) : StateM World LiveStats :=
  signatures.foldlM (fun stats signature => h.handle signature stats) stats

/-- How many transactions are under way after the `n`-th of several announcements in a row. -/
def inFlightAfter (h : LiveHandler) (n : Nat) : Nat :=
  min n h.maxInFlight

end LiveHandler
end PairIndex
