import PairIndex.Crawl.World
import PairIndex.Ingest.Progress
import PairIndex.Ingest.Transaction

/-! Ingesting a chunk of signatures. Each is fetched and processed, after which a delay is waited for. The signatures of a
chunk are ingested at the same time, though only so many at once, and which of them goes on next is told by the world. -/

namespace PairIndex

/-- How an address is crawled. -/
structure Crawler where
  address : String
  description : String := ""
  pageSize : Int := 1000
  batchSize : Int := 1000
  /-- How many signatures may be ingested at the same time. -/
  concurrency : Nat := 10
  pageDelay : Rat := mkRat 1 10
  requestDelay : Rat := mkRat 1 10

/-- How far the ingestion of a signature has come. -/
inductive Ingestion where
  | waiting (info : SignatureInfo)
  | processing (call : Progress)
  /-- The request delay is still to be waited for. -/
  | leaving (outcome : Except Failure Bool)
  | settled (outcome : Except Failure Bool)

namespace Ingestion

def isWaiting : Ingestion → Bool
  | .waiting _ => true
  | _ => false

/-- Whether an ingestion has begun and has not settled. -/
def isUnderWay : Ingestion → Bool
  | .processing _ | .leaving _ => true
  | _ => false

/-- An ingestion whose signature was looked up. -/
def ofPrepared : Except Failure (Option DecodedTransaction) → Ingestion
  | .ok (some tx) => .processing (.recording tx)
  | .ok none => .leaving (.ok false)
  | .error failure => .leaving (.error failure)

/-- An ingestion whose transaction is being processed. -/
def ofCall : Progress → Ingestion
  | .ended outcome => .leaving (outcome.map (·.isOk))
  | call => .processing call

end Ingestion

/-- The outcomes, or the first failure among them. -/
def allOrFirst {α : Type} : List (Except Failure α) → Except Failure (List α)
  | [] => .ok []
  | .error failure :: _ => .error failure
  | .ok a :: rest => (allOrFirst rest).map (a :: ·)

namespace Crawler

/-- Looks up the transaction of a signature. The index entry of a failed transaction suffices. -/
def prepare (c : Crawler) (info : SignatureInfo) : Attempt World (Option DecodedTransaction) := do
  if info.isFailed then return some (← MonadExcept.ofExcept info.decode)
  else
    match ← World.fetch info.signature with
    | none => return none
    | some tx => return some (← MonadExcept.ofExcept (tx.decode c.address))

/-- Looks up and processes one signature. -/
def ingestOnce (c : Crawler) (info : SignatureInfo) : Attempt World Bool := do
  match ← c.prepare info with
  | none => return false
  | some tx => return (← World.onDatabase tx.process).isOk

/-- Ends an ingestion with the request delay; a transient failure of the ledger is an unsuccessful outcome. -/
def conclude (c : Crawler) (outcome : Except Failure Bool) : Attempt World Bool := do
  if c.requestDelay ≠ 0 then World.sleep c.requestDelay
  match outcome with
  | .ok ok => return ok
  | .error failure => if failure.isTransient then return false else throw failure

/-- Ingests one signature with nothing else in between. -/
def ingest (c : Crawler) (info : SignatureInfo) : Attempt World Bool := do
  c.conclude (← (c.ingestOnce info).settle)

/-! ### Taking turns -/

/-- An ingestion after its next turn, in which it calls the ledger or runs a session, and the world after that. -/
def advance (c : Crawler) : Ingestion → World → Ingestion × World
  | .waiting info, w =>
    let (prepared, w') := (c.prepare info).outcome w
    (.ofPrepared prepared, w')
  | .processing call, w =>
    let (call', database) := call.step w.database
    (.ofCall call', { w with database })
  | .leaving outcome, w =>
    let (result, w') := (c.conclude outcome).outcome w
    (.settled result, w')
  | .settled outcome, w => (.settled outcome, w)

/-- Carries an ingestion to its end with nothing else in between. -/
def finish (c : Crawler) : Ingestion → Attempt World Bool
  | .waiting info => c.ingest info
  | .processing call => do c.conclude (← Attempt.settle do return (← World.onDatabase call.finish).isOk)
  | .leaving outcome => c.conclude outcome
  | .settled outcome => MonadExcept.ofExcept outcome

/-- Whether it may be the turn of an ingestion. One that waits begins after all that stand before it, and only while
fewer are under way than may be. -/
def mayTurn (c : Crawler) (tasks : List Ingestion) (place : Nat) : Bool :=
  (tasks[place]?).all fun task =>
    !task.isWaiting ||
      (tasks.take place).all (!·.isWaiting) && decide (tasks.countP (·.isUnderWay) < c.concurrency)

/-- Ingestions and the world after the turn of one of them. -/
def turn (c : Crawler) (tasks : List Ingestion) (w : World) (place : Nat) : List Ingestion × World :=
  match tasks[place]? with
  | none => (tasks, w)
  | some task =>
    if c.mayTurn tasks place then
      let (task', w') := c.advance task w
      (tasks.set place task', w')
    else (tasks, w)

/-- Lets ingestions take turns. -/
def takeTurns (c : Crawler) (turns : List Nat) (tasks : List Ingestion) : Attempt World (List Ingestion) := fun w =>
  let (tasks', w') := turns.foldl (fun (tasks, w) place => c.turn tasks w place) (tasks, w)
  (.ok tasks', w')

/-- Ingests all signatures of a chunk. They take turns as the world tells, and what has not settled then is ingested to
its end, one after another; only then does a failure of one of them end the crawl. -/
def ingestChunk (c : Crawler) (chunk : List SignatureInfo) : Attempt World (List Bool) := do
  let tasks ← c.takeTurns (← World.takeTurns) (chunk.map .waiting)
  let outcomes ← tasks.mapM fun task => (c.finish task).settle
  match allOrFirst outcomes with
  | .ok oks => return oks
  | .error failure => throw failure

end Crawler
end PairIndex
