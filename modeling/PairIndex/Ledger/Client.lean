import PairIndex.Bytes.Base58
import PairIndex.Json.Parser
import PairIndex.Json.Printer
import PairIndex.Ledger.Transaction

/-! A ledger client: it asks a node for pages and transactions, and keeps fetched transactions in a cache, since they
never change. The cache may fail at any time; the client then goes on without it. What fails at the node is transient. -/

namespace PairIndex

/-- A call of a node. -/
inductive RpcCall where
  | signatures (address : String) (before stopAt : Option String) (limit : Int) (commitment : String)
  | transaction (signature : String) (commitment : String)
  deriving DecidableEq, Repr

/-- What a node tells of a transaction. -/
structure RpcTransaction where
  slot : Int
  blockTime : Option Int := none
  /-- Its log and what went wrong, if the node kept them. -/
  outcome : Option (List String × Json) := none
  deriving Inhabited

/-- What a node answers. -/
inductive RpcReply where
  | nothing
  /-- A page of the signature index. -/
  | page (infos : List SignatureInfo)
  | transaction (tx : RpcTransaction)
  /-- An error of the node or on the way to it. -/
  | failed (message : String)
  | timedOut
  | broken (failure : Failure)
  deriving Inhabited

/-- A text in the cache, and for how many seconds it is kept, if it was written by the client. -/
structure CacheEntry where
  key : String
  text : String
  ttl : Option Int := none
  deriving DecidableEq, Repr

/-- How a client works. -/
structure ClientConfig where
  commitment : String := "confirmed"
  /-- The timeout of a call in seconds, as it is written. -/
  timeout : String := "30.0"
  /-- For how many seconds a transaction is cached. -/
  cacheTtl : Int := 86400

/-- A client, the answers that its node will give, and what it did. -/
structure LedgerClient where
  config : ClientConfig := {}
  /-- The cache, if there is one. -/
  cache : Option (List CacheEntry) := none
  replies : List RpcReply := []
  calls : List RpcCall := []
  closes : Nat := 0

/-- Whether the cache fails when it is read or written. -/
structure CacheFaults where
  onRead : Bool := false
  onWrite : Bool := false

namespace LedgerClient

/-- The number of entries that a page has at most. -/
def maxPageSize : Int :=
  1000

def cacheKey (signature : String) : String :=
  "omnipair:tx:" ++ signature

/-- What is said about a text that is not the base-58 form of a number of bytes. -/
def notBase58 : Failure :=
  ⟨.invalidValue, "invalid base58"⟩

/-- Refuses a text that is not the base-58 form of some bytes of the given number. -/
def checkBase58 (size : Nat) (text : String) : Attempt LedgerClient Unit :=
  match Base58.decode? text with
  | some bytes => if bytes.length = size then return () else throw notBase58
  | none => throw notBase58

def call (c : RpcCall) : Attempt LedgerClient RpcReply := do
  let client ← get
  set { client with calls := client.calls ++ [c], replies := client.replies.tail }
  return client.replies.headD .nothing

/-- The failure that a reply stands for, if it stands for one. -/
def RpcReply.failure? (config : ClientConfig) (method : String) : RpcReply → Option Failure
  | .failed message => some ⟨.transientLedger, method ++ " failed: " ++ message⟩
  | .timedOut => some ⟨.transientLedger, method ++ " timed out after " ++ config.timeout ++ "s"⟩
  | .broken failure => some failure
  | _ => none

/-- The transaction in a reply, if there is one. -/
def transactionOf (signature : String) : RpcReply → Option LedgerTransaction
  | .transaction tx =>
    let (logs, err) := tx.outcome.getD ([], .null)
    some { signature, slot := tx.slot, blockTime := tx.blockTime, logs, err }
  | _ => none

/-- The text that is cached under a key, unless the cache fails. -/
def cached? (faults : CacheFaults) (client : LedgerClient) (key : String) : Option String :=
  if faults.onRead then none
  else ((client.cache.getD []).find? (·.key == key)).map (·.text)

/-- Entries with one more, which replaces that of its key. -/
def setEntry (entry : CacheEntry) : List CacheEntry → List CacheEntry
  | [] => [entry]
  | e :: rest => if e.key = entry.key then entry :: rest else e :: setEntry entry rest

/-- Writes a text to the cache, unless there is none or it fails. -/
def remember (faults : CacheFaults) (key text : String) (client : LedgerClient) : LedgerClient :=
  if faults.onWrite then client
  else
    { client with cache := client.cache.map (setEntry { key, text, ttl := some client.config.cacheTtl }) }

/-- Reads a cached transaction. -/
def readCached (text : String) : Except Failure LedgerTransaction :=
  match Json.parse text with
  | .error .malformed => .error ⟨.other "JSONDecodeError", "malformed JSON"⟩
  | .error (.tooManyDigits digits) => .error ⟨.invalidValue, Json.tooManyDigitsMessage digits⟩
  | .ok value => (LedgerTransaction.ofJson value).mapError (·.failure)

/-- A signature to page from or to; the empty one is none. -/
def signatureOrNone (signature : Option String) : Option String :=
  signature.filter (!·.isEmpty)

def signatures (address : String) (before stopAt : Option String) (limit : Int) :
    Attempt LedgerClient (List SignatureInfo) := do
  checkBase58 32 address
  let before := signatureOrNone before
  let stopAt := signatureOrNone stopAt
  if let some signature := before then checkBase58 64 signature
  if let some signature := stopAt then checkBase58 64 signature
  let config := (← get).config
  let reply ← call (.signatures address before stopAt (min limit maxPageSize) config.commitment)
  match RpcReply.failure? config "getSignaturesForAddress" reply with
  | some failure => throw failure
  | none =>
    match reply with
    | .page infos => return infos
    | _ => return []

def fetch (faults : CacheFaults) (signature : String) : Attempt LedgerClient (Option LedgerTransaction) := do
  checkBase58 64 signature
  let config := (← get).config
  let reply ← call (.transaction signature config.commitment)
  match RpcReply.failure? config "getTransaction" reply with
  | some failure => throw failure
  | none =>
    match transactionOf signature reply with
    | none => return none
    | some tx =>
      modify (remember faults (cacheKey signature) tx.toJson.print)
      return some tx

/-- The transaction of a signature, from the cache if it is there. -/
def transaction (faults : CacheFaults) (signature : String) : Attempt LedgerClient (Option LedgerTransaction) := do
  match cached? faults (← get) (cacheKey signature) with
  | some text =>
    match readCached text with
    | .ok tx => return some tx
    | .error failure => throw failure
  | none => fetch faults signature

def close (client : LedgerClient) : LedgerClient :=
  { client with closes := client.closes + 1 }

end LedgerClient
end PairIndex
