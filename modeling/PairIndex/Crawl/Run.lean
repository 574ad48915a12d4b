import PairIndex.Crawl.Ingest
import PairIndex.Crawl.Walk
import PairIndex.Store.Watermarks

/-! Backfills and gap fills of one address. Both walk the signature index, process what they collected from the oldest
entry on in chunks, and after each chunk move the watermark to the end of the longest prefix that was processed
without a failure. A signature that failed therefore stays after the watermark and is met again by the next gap fill. -/

namespace PairIndex

/-- The outcome of a backfill or a gap fill. -/
structure IngestResult where
  message : String
  error : Option String := none
  processed : Nat := 0
  failed : Nat := 0
  /-- Whether nothing was done because a crawl of the address was under way. -/
  busy : Bool := false
  deriving DecidableEq, Repr

/-- What a backfill is asked for. -/
structure BackfillRequest where
  fromSlot : Option Int := none
  toSlot : Option Int := none
  /-- Whether to walk past the watermark. -/
  reprocess : Bool := false
  batchSize : Option Int := none
  deriving DecidableEq, Repr

/-- A list in parts of `size` items, the last one possibly shorter. -/
def chunksOf {α : Type} (size : Nat) (items : List α) : List (List α) :=
  if h : 0 < size ∧ items ≠ [] then
    have : (items.drop size).length < items.length := by
      have := List.length_pos_iff.mpr h.2
      simp only [List.length_drop]
      omega
    items.take size :: chunksOf size (items.drop size)
  else []
termination_by items.length

/-- The number of items before the first that is false. -/
def successPrefix (outcomes : List Bool) : Nat :=
  (outcomes.takeWhile id).length

namespace Crawler

/-- The answer while another crawl of the address is under way. -/
def busyResult (c : Crawler) : IngestResult :=
  { message := "Ingestion already running for " ++ c.address, error := some "busy", busy := true }

/-- Moves the watermark to the end of a chunk's successful prefix, unless that is empty. -/
def moveWatermark (c : Crawler) (first : Option String) (chunk : List SignatureInfo) (count : Nat) :
    Attempt World Unit :=
  match (chunk.take count).getLast? with
  | none => return ()
  | some newest => do
    let _ ← World.session (Session.advanceWatermark c.address newest.signature newest.slot first)

/-- Processes chunks, and counts successes and failures. Once a signature failed the watermark stays. -/
def processChunks (c : Crawler) (first : Option String) :
    Bool → List (List SignatureInfo) → Attempt World (Nat × Nat)
  | _, [] => return (0, 0)
  | advance, chunk :: rest => do
    if (← get).stopped then return (0, 0)
    let oks ← c.ingestChunk chunk
    let count := successPrefix oks
    if advance then c.moveWatermark first chunk count
    let (processed, failed) ← c.processChunks first (advance && count == chunk.length) rest
    let okCount := oks.countP id
    return (okCount + processed, chunk.length - okCount + failed)

def zeroBatch : Failure :=
  ⟨.invalidValue, "range() arg 3 must not be zero"⟩

/-- Processes signatures, oldest first, in batches. A negative batch size makes no batches. -/
def processAll (c : Crawler) (signatures : List SignatureInfo) (batchSize : Int) (advance : Bool) :
    Attempt World (Nat × Nat) :=
  if batchSize = 0 then throw zeroBatch
  else c.processChunks (signatures.head?.map (·.signature)) advance (chunksOf batchSize.toNat signatures)

/-- The result of a crawl that went through. -/
def completed (c : Crawler) (what : String) (processed failed : Nat) : IngestResult :=
  { message := what ++ " completed for " ++ c.address ++ ": " ++ Number.integerText processed ++ " processed, " ++
      Number.integerText failed ++ " failed"
    error := if failed = 0 then none else some (Number.integerText failed ++ " transactions failed")
    processed, failed }

/-- How the index is walked. -/
def paging (c : Crawler) : Paging :=
  { address := c.address, pageSize := c.pageSize, delay := c.pageDelay }

/-- Crawls the history after the watermark, or all of it. The watermark moves only if what was collected joins up with
what was processed before. -/
def backfill (c : Crawler) (r : BackfillRequest) : Attempt World IngestResult := do
  let watermark ← World.session (Session.openWatermark c.address c.description)
  let bounds : WalkBounds :=
    { stopAt := if r.reprocess then none else watermark.latestSignature, fromSlot := r.fromSlot, toSlot := r.toSlot }
  match ← (c.paging.walk bounds).settle with
  | .error failure =>
    if failure.isTransient then
      return { message := "Backfill aborted for " ++ c.address, error := some failure.message }
    else throw failure
  | .ok walk =>
    let joins := walk.connected || watermark.latestSignature.isNone ||
      r.fromSlot.any fun slot => decide (slot ≤ watermark.checkedUpToSlot)
    let batchSize := if r.batchSize.getD 0 = 0 then c.batchSize else r.batchSize.getD 0
    let (processed, failed) ← c.processAll walk.signatures batchSize joins
    return c.completed "Backfill" processed failed

/-- Processes every signature newer than the watermark. -/
def gapFill (c : Crawler) : Attempt World IngestResult := do
  match (← World.session (Session.watermark? c.address)).bind (·.latestSignature) with
  | none => return { message := "No watermark for " ++ c.address ++ "; no gap fill needed" }
  | some latest =>
    match ← (c.paging.walk { stopAt := some latest }).settle with
    | .error failure =>
      if failure.isTransient then
        return { message := "Gap fill aborted for " ++ c.address, error := some failure.message }
      else throw failure
    | .ok walk =>
      if walk.signatures.isEmpty then return { message := "No gap for " ++ c.address }
      else
        let (processed, failed) ← c.processAll walk.signatures c.batchSize walk.connected
        return c.completed "Gap fill" processed failed

end Crawler
end PairIndex
