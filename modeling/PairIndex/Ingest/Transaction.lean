import PairIndex.Ingest.Process
import PairIndex.Ledger.Transaction

/-! From the ledger to the store: a fetched transaction is decoded for one program, an index entry of a failed
transaction is taken as it is. -/

namespace PairIndex

/-- The moment of a block time. -/
def blockMoment {m : Type → Type} [Monad m] [MonadExcept Failure m] (blockTime : Option Int) : m (Option Moment) :=
  match blockTime with
  | none => return none
  | some seconds =>
    match Moment.ofSeconds seconds with
    | .ok moment => return some moment
    | .error e => throw e.failure

/-- What is known of a transaction once its log was read for a program. -/
def LedgerTransaction.decoded (tx : LedgerTransaction) (source : String) (blockTime : Option Moment) :
    DecodedTransaction :=
  { signature := tx.signature, slot := tx.slot, blockTime, events := eventsOf source tx.logs, failed := tx.isFailed }

/-- What is known of a failed transaction from its index entry. -/
def SignatureInfo.decoded (info : SignatureInfo) (blockTime : Option Moment) : DecodedTransaction :=
  { signature := info.signature, slot := info.slot, blockTime, events := [], failed := true }

/-- Reads the log of a transaction for a program, and its block time. -/
def LedgerTransaction.decode (tx : LedgerTransaction) (source : String) : Except Failure DecodedTransaction := do
  return tx.decoded source (← PairIndex.blockMoment tx.blockTime)

/-- Reads the index entry of a failed transaction. -/
def SignatureInfo.decode (info : SignatureInfo) : Except Failure DecodedTransaction := do
  return info.decoded (← blockMoment info.blockTime)

/-- Decodes the log of a transaction for a program and processes its events. -/
def processTransaction (tx : LedgerTransaction) (source : String) : Attempt Database ProcessResult := do
  (← MonadExcept.ofExcept (tx.decode source)).process

end PairIndex
