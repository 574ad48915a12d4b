import PairIndex.Ledger.Transaction

/-! A ledger that answers from a recorded history, and whose failures can be switched on and off. -/

namespace PairIndex

/-- Which calls of a recorded ledger fail, and how. -/
structure LedgerSwitches where
  /-- Transactions that cannot be fetched this time. -/
  failing : List String := []
  /-- Transactions whose fetch breaks the connection. -/
  fatal : List String := []
  /-- Transactions that the ledger does not know yet. -/
  missing : List String := []
  /-- Whether no page can be fetched. -/
  failPages : Bool := false
  /-- The page call that fails. -/
  failPageAt : Option Int := none
  /-- The page call during which a stop is asked for. -/
  stopOnPage : Option Int := none
  /-- The fetch during which a stop is asked for. -/
  stopOnFetch : Option String := none
  /-- Whether a page includes the signature that it stops at. -/
  inclusiveUntil : Bool := false
  /-- Pages to answer with instead of the history. -/
  pages : Option (List (List SignatureInfo)) := none
  deriving Inhabited

/-- A recorded history, oldest first. -/
structure RecordedLedger where
  history : List LedgerTransaction := []
  /-- Whether the signature index of an address lists a signature. -/
  lists : String → String → Bool := fun _ _ => true
  switches : LedgerSwitches := {}
  deriving Inhabited

structure PageRequest where
  address : String
  before : Option String
  stopAt : Option String
  limit : Int
  deriving DecidableEq, Repr

/-- The entries of a page, newest first, from the newest entry that may be on it. -/
def pageFrom (stopAt : Option String) (inclusive : Bool) : Int → List SignatureInfo → List SignatureInfo
  | _, [] => []
  | limit, info :: rest =>
    if stopAt = some info.signature then (if inclusive then [info] else [])
    else if limit ≤ 1 then [info]
    else info :: pageFrom stopAt inclusive (limit - 1) rest

namespace RecordedLedger

/-- Reads a history from a list of transactions. -/
def ofJson (value : Json) : Except Json.AccessError RecordedLedger := do
  return { history := ← (← value.items).mapM LedgerTransaction.ofJson }

/-- The part of the history that the signature index of an address lists. -/
def historyOf (l : RecordedLedger) (address : String) : List LedgerTransaction :=
  l.history.filter fun tx => l.lists address tx.signature

/-- The signature index of an address, newest first. -/
def index (l : RecordedLedger) (address : String) : List SignatureInfo :=
  ((l.historyOf address).map (·.info)).reverse

/-- The entries older than a signature, if the index has it. -/
def olderThan? (signature : String) (infos : List SignatureInfo) : Option (List SignatureInfo) :=
  match infos.dropWhile (·.signature != signature) with
  | [] => none
  | _ :: older => some older

/-- What is said about a page that starts at an unknown signature. -/
def unknownSignature : Failure :=
  ⟨.invalidValue, "unknown signature"⟩

/-- What is said about a page that cannot be fetched. -/
def pageTimeout : Failure :=
  ⟨.transientLedger, "getSignaturesForAddress timed out"⟩

/-- A page of the index of an address, and the ledger after it. -/
def page (l : RecordedLedger) (request : PageRequest) : Except Failure (List SignatureInfo) × RecordedLedger :=
  match l.switches.pages with
  | some (first :: others) => (.ok first, { l with switches := { l.switches with pages := some others } })
  | some [] => (.ok [], l)
  | none =>
    let start? :=
      match request.before with
      | none => some (l.index request.address)
      | some signature => olderThan? signature (l.index request.address)
    match start? with
    | none => (.error unknownSignature, l)
    | some start => (.ok (pageFrom request.stopAt l.switches.inclusiveUntil request.limit start), l)

/-- A number of page calls after which every walk through an index has ended. -/
def pageBound (l : RecordedLedger) : Nat :=
  l.history.length + (l.switches.pages.getD []).length + 2

def transaction? (l : RecordedLedger) (signature : String) : Option LedgerTransaction :=
  if l.switches.missing.contains signature then none else l.history.find? (·.signature == signature)

/-- The failure of a fetch, if it is switched on. -/
def fetchFailure? (l : RecordedLedger) (signature : String) : Option Failure :=
  if l.switches.failing.contains signature then
    some ⟨.transientLedger, "getTransaction " ++ signature ++ " timed out"⟩
  else if l.switches.fatal.contains signature then
    some ⟨.connection, "connection refused fetching " ++ signature⟩
  else none

end RecordedLedger
end PairIndex
