/-! Failures of the store, the ledger and the connections, and which of them mean that the store is out of reach. -/

namespace PairIndex

/-- What went wrong. -/
inductive FailureKind where
  /-- The store cannot be operated. -/
  | storeOperation
  /-- The store cannot be talked to. -/
  | storeInterface
  /-- A row breaks a rule of the store. -/
  | storeIntegrity
  /-- Any other error that the store reports. -/
  | storeOther
  /-- The store reports an error after which its connection is of no use. -/
  | storeDisconnected
  | connection
  | connectionRefused
  | connectionReset
  | connectionAborted
  | brokenPipe
  /-- The ledger did not answer this time. -/
  | transientLedger
  | subscription
  | subscriptionConnection
  /-- A job was asked for an address that is not watched. -/
  | unknownAddress
  /-- A value has the right form and is not acceptable. -/
  | invalidValue
  /-- A value has the wrong form. -/
  | invalidType
  | missingKey
  /-- Members are looked for where there are none. -/
  | noMembers
  | outOfRange
  /-- The operating system reports an error. -/
  | system
  | timeout
  /-- Something was asked for at the wrong time. -/
  | wrongState
  /-- Any other failure, by name. -/
  | other (name : String)
  deriving DecidableEq, Repr

/-- A failure and what is said about it. -/
structure Failure where
  kind : FailureKind
  message : String
  deriving DecidableEq, Repr

/-- Whether a failure means that the store itself is out of reach, so that going on is of no use. -/
def FailureKind.isFatal : FailureKind → Bool
  | .storeOperation | .storeInterface | .storeDisconnected => true
  | .connection | .connectionRefused | .connectionReset | .connectionAborted | .brokenPipe => true
  | _ => false

/-- Whether a failure means that the store itself is out of reach. -/
def Failure.isFatal (f : Failure) : Bool :=
  f.kind.isFatal

/-- Whether a failure will go away by itself, so that only one transaction or page is skipped. -/
def Failure.isTransient (f : Failure) : Bool :=
  f.kind == .transientLedger

/-- A computation over a state in which a failure keeps what was done before it. -/
abbrev Attempt (σ : Type) := ExceptT Failure (StateM σ)

/-- The outcome of an attempt from a state, and the state it leaves. -/
def Attempt.outcome {σ α : Type} (attempt : Attempt σ α) (s : σ) : Except Failure α × σ :=
  attempt.run.run s

end PairIndex
