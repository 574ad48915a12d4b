import PairIndex.Ledger.Recorded
import PairIndex.Store.Basic

/-! What a crawl works on: the database, the ledger, the calls it made, and whether it was asked to stop. -/

namespace PairIndex

/-- The calls that were made, in order. -/
structure CallLog where
  pages : List PageRequest := []
  fetched : List String := []
  /-- Delays in seconds. -/
  sleeps : List Rat := []
  deriving Inhabited

/-- The state that a crawl works on. -/
structure World where
  database : Database := {}
  ledger : RecordedLedger := {}
  calls : CallLog := {}
  /-- How many pages were asked for in the current step. -/
  pageCalls : Nat := 0
  /-- Whether a stop was asked for. -/
  stopped : Bool := false
  /-- In which order the signatures of each chunk to come take turns, as far as they do. -/
  turns : List (List Nat) := []
  deriving Inhabited

namespace World

/-- An attempt on the database, as one on the world. -/
def onDatabase {α : Type} (attempt : Attempt Database α) : Attempt World α := fun w =>
  let (outcome, database) := attempt.outcome w.database
  (outcome, { w with database })

def session {α : Type} (s : Session α) : Attempt World α :=
  onDatabase (Database.session s)

/-- The turns of the next chunk. -/
def takeTurns : Attempt World (List Nat) :=
  modifyGet fun w => (w.turns.headD [], { w with turns := w.turns.tail })

def sleep (seconds : Rat) : Attempt World Unit :=
  modify fun w => { w with calls := { w.calls with sleeps := w.calls.sleeps ++ [seconds] } }

def page (request : PageRequest) : Attempt World (List SignatureInfo) := do
  modify fun w =>
    { w with pageCalls := w.pageCalls + 1, calls := { w.calls with pages := w.calls.pages ++ [request] } }
  let w ← get
  let switches := w.ledger.switches
  let n : Int := w.pageCalls
  if switches.failPages ∨ switches.failPageAt = some n then throw RecordedLedger.pageTimeout
  if switches.stopOnPage = some n then modify fun w => { w with stopped := true }
  let (outcome, ledger) := w.ledger.page request
  modify fun w => { w with ledger }
  liftExcept outcome
where
  liftExcept (outcome : Except Failure (List SignatureInfo)) : Attempt World (List SignatureInfo) :=
    match outcome with
    | .ok infos => pure infos
    | .error failure => throw failure

def fetch (signature : String) : Attempt World (Option LedgerTransaction) := do
  modify fun w => { w with calls := { w.calls with fetched := w.calls.fetched ++ [signature] } }
  let w ← get
  match w.ledger.fetchFailure? signature with
  | some failure => throw failure
  | none =>
    if w.ledger.switches.stopOnFetch = some signature then modify fun w => { w with stopped := true }
    return w.ledger.transaction? signature

end World

/-- An attempt whose failure is handed back as a value. -/
def Attempt.settle {σ α : Type} (attempt : Attempt σ α) : Attempt σ (Except Failure α) :=
  ExceptT.lift attempt.run

end PairIndex
