/-! A token bucket that limits the rate of calls. Tokens are refilled as time passes, up to the capacity; a call that finds
too few waits for the time in which the missing ones are refilled, and looks again. The bucket works over any numbers, so
that it can be run in machine arithmetic and reasoned about in exact arithmetic. -/

namespace PairIndex

/-- A bucket of tokens. -/
structure TokenBucket (α : Type) where
  capacity : α
  /-- Tokens refilled in a second. -/
  rate : α
  tokens : α
  /-- When tokens were refilled last. -/
  lastRefill : α
  deriving DecidableEq, Repr

/-- How an attempt to take tokens ended. -/
inductive TakeEnd where
  | taken
  /-- There were too few after all waits that were allowed. -/
  | outOfPatience
  /-- Tokens are missing and none is ever refilled. -/
  | neverRefilled
  deriving DecidableEq, Repr

/-- An attempt to take tokens: how it ended, the bucket and the time after it, and the waits. -/
structure Take (α : Type) where
  ending : TakeEnd
  bucket : TokenBucket α
  now : α
  waits : List α

namespace TokenBucket

variable {α : Type} [Add α] [Sub α] [Mul α] [Div α] [LT α] [LE α] [DecidableLT α] [DecidableLE α] [OfNat α 0] [BEq α]

/-- A full bucket for a number of calls a second. -/
def full (callsPerSecond now : α) : TokenBucket α :=
  ⟨callsPerSecond, callsPerSecond, callsPerSecond, now⟩

/-- The bucket after the tokens of the time gone by were refilled. -/
def refill (b : TokenBucket α) (now : α) : TokenBucket α :=
  let filled := b.tokens + (now - b.lastRefill) * b.rate
  { b with tokens := if filled < b.capacity then filled else b.capacity, lastRefill := now }

/-- The time in which the tokens missing for an amount are refilled. -/
def waitFor (b : TokenBucket α) (amount : α) : α :=
  (amount - b.tokens) / b.rate

/-- Takes tokens, waiting at most `patience` times. -/
def take (amount : α) : Nat → α → TokenBucket α → Take α
  | patience, now, b =>
    let b := b.refill now
    if amount ≤ b.tokens then ⟨.taken, { b with tokens := b.tokens - amount }, now, []⟩
    else if b.rate == 0 then ⟨.neverRefilled, b, now, []⟩
    else
      match patience with
      | 0 => ⟨.outOfPatience, b, now, []⟩
      | patience + 1 =>
        let wait := b.waitFor amount
        let later := take amount patience (now + wait) b
        { later with waits := wait :: later.waits }

end TokenBucket
end PairIndex
