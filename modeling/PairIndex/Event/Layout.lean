import PairIndex.Event.Basic
import PairIndex.Bytes.Sha256
import PairIndex.Number.Decimal

/-! The binary form of an event: eight bytes that name its kind, then its fields in a fixed order, integers with the
lowest byte first. `decodePayload` reads it and `EventBody.encode` writes it; bytes after the last field are ignored. -/

namespace PairIndex

/-- Why a payload is not an event. -/
inductive DecodeError where
  /-- The payload is too short to name a kind. -/
  | noDiscriminator (size : Nat)
  /-- The payload ends before a field does. -/
  | truncated (need size : Nat)
  deriving DecidableEq, Repr

def DecodeError.message : DecodeError → String
  | .noDiscriminator size => "payload of " ++ Number.integerText size ++ " bytes has no discriminator"
  | .truncated need size =>
    "payload truncated: need " ++ Number.integerText need ++ " bytes, have " ++ Number.integerText size

def discriminatorSize : Nat :=
  8

/-- The first eight bytes of the hash of `event:` and a name. -/
def eventDiscriminator (name : String) : Bytes :=
  (Sha256.digest (("event:" ++ name).toUTF8.toList)).take discriminatorSize

/-- The bytes that name a kind. -/
def EventKind.discriminator (kind : EventKind) : Bytes :=
  eventDiscriminator kind.name

/-- The kinds by the bytes that name them. -/
def EventKind.registry : List (Bytes × EventKind) :=
  EventKind.all.map fun kind => (kind.discriminator, kind)

/-- The kind that some bytes name. -/
def EventKind.ofDiscriminator? (bytes : Bytes) : Option EventKind :=
  (EventKind.registry.find? (·.1 == bytes)).map (·.2)

/-- A place in the fields of a payload. -/
structure Cursor where
  /-- How many bytes were read. -/
  consumed : Nat
  /-- The bytes that were not. -/
  rest : Bytes
  deriving DecidableEq, Repr

/-- Reads fields one after another. -/
abbrev FieldReader := StateT Cursor (Except DecodeError)

namespace FieldReader

/-- The next bytes, if there are that many. -/
def take (size : Nat) : FieldReader { bytes : Bytes // bytes.length = size } := fun c =>
  if h : size ≤ c.rest.length then
    .ok (⟨c.rest.take size, by simp [h]⟩, ⟨c.consumed + size, c.rest.drop size⟩)
  else .error (.truncated (c.consumed + size) (c.consumed + c.rest.length))

def publicKey : FieldReader PublicKey := do
  let ⟨bytes, h⟩ ← take 32
  return ⟨bytes, h⟩

def word : FieldReader UInt64 := do
  let ⟨bytes, _⟩ ← take 8
  return UInt64.ofNat bytes.toNatLE

def signedWord : FieldReader Int64 := do
  return (← word).toInt64

/-- A truth value: any byte but zero is true. -/
def flag : FieldReader Bool := do
  let ⟨bytes, _⟩ ← take 1
  return bytes != [0]

/-- The metadata that ends most events. -/
def metadata : FieldReader EventMetadata := do
  let signer ← publicKey
  let pair ← publicKey
  let seqNum ← word
  let timestamp ← signedWord
  return { signer, pair, seqNum, timestamp }

def pairState : FieldReader PairState := do
  let reserve0 ← word
  let reserve1 ← word
  let totalSupply ← word
  let price0Ema ← word
  let price1Ema ← word
  let rate0 ← word
  let rate1 ← word
  return { reserve0, reserve1, totalSupply, price0Ema, price1Ema, rate0, rate1 }

def positionState : FieldReader PositionState := do
  let collateral0 ← word
  let collateral1 ← word
  let debt0Shares ← word
  let debt1Shares ← word
  return { collateral0, collateral1, debt0Shares, debt1Shares }

/-- The fields of an event of the given kind. -/
def body : EventKind → FieldReader EventBody
  | .pairCreated => do
    let token0 ← publicKey
    let token1 ← publicKey
    let pair ← publicKey
    let creator ← publicKey
    return .pairCreated token0 token1 pair creator (← signedWord)
  | .swap => do
    let isToken0In ← flag
    let amountIn ← word
    let amountOut ← word
    let fee ← word
    let state ← pairState
    return .swap isToken0In amountIn amountOut fee state (← metadata)
  | .mint => do
    let amount0 ← word
    let amount1 ← word
    let liquidity ← word
    let state ← pairState
    return .mint amount0 amount1 liquidity state (← metadata)
  | .burn => do
    let amount0 ← word
    let amount1 ← word
    let liquidity ← word
    let state ← pairState
    return .burn amount0 amount1 liquidity state (← metadata)
  | .adjustLiquidity => do
    let amount0 ← word
    let amount1 ← word
    let liquidity ← word
    return .adjustLiquidity amount0 amount1 liquidity (← metadata)
  | .updatePair => do
    let state ← pairState
    return .updatePair state (← metadata)
  | .adjustCollateral => do
    let amount0 ← signedWord
    let amount1 ← signedWord
    return .adjustCollateral amount0 amount1 (← metadata)
  | .adjustDebt => do
    let amount0 ← signedWord
    let amount1 ← signedWord
    return .adjustDebt amount0 amount1 (← metadata)
  | .flashloan => do
    let amount0 ← word
    let amount1 ← word
    let fee0 ← word
    let fee1 ← word
    let receiver ← publicKey
    return .flashloan amount0 amount1 fee0 fee1 receiver (← metadata)
  | .positionCreated => do
    let user ← publicKey
    let pair ← publicKey
    let position ← publicKey
    return .positionCreated user pair position (← signedWord)
  | .positionUpdated => do
    let position ← publicKey
    let state ← positionState
    return .positionUpdated position state (← metadata)
  | .positionLiquidated => do
    let position ← publicKey
    let liquidator ← publicKey
    let collateral0Liquidated ← word
    let collateral1Liquidated ← word
    let debt0Liquidated ← word
    let debt1Liquidated ← word
    let collateralPrice ← word
    let liquidationBonusApplied ← word
    let state ← positionState
    return .positionLiquidated position liquidator collateral0Liquidated collateral1Liquidated debt0Liquidated
      debt1Liquidated collateralPrice liquidationBonusApplied state (← metadata)

end FieldReader

/-- Reads a payload; there is no event if its first bytes name no kind. -/
def decodePayload (payload : Bytes) (logIndex : Int) : Except DecodeError (Option Event) :=
  if payload.length < discriminatorSize then .error (.noDiscriminator payload.length)
  else
    match EventKind.ofDiscriminator? (payload.take discriminatorSize) with
    | none => .ok none
    | some kind =>
      match (FieldReader.body kind).run ⟨0, payload.drop discriminatorSize⟩ with
      | .ok (body, _) => .ok (some ⟨body, logIndex⟩)
      | .error e => .error e

def encodeWord (w : UInt64) : Bytes :=
  Bytes.ofNatLE 8 w.toNat

def encodeSignedWord (w : Int64) : Bytes :=
  encodeWord w.toUInt64

def encodeFlag (b : Bool) : Bytes :=
  [if b then 1 else 0]

def EventMetadata.encode (m : EventMetadata) : Bytes :=
  m.signer.bytes ++ m.pair.bytes ++ encodeWord m.seqNum ++ encodeSignedWord m.timestamp

def PairState.encode (s : PairState) : Bytes :=
  [s.reserve0, s.reserve1, s.totalSupply, s.price0Ema, s.price1Ema, s.rate0, s.rate1].flatMap encodeWord

def PositionState.encode (s : PositionState) : Bytes :=
  [s.collateral0, s.collateral1, s.debt0Shares, s.debt1Shares].flatMap encodeWord

def EventBody.encodeFields : EventBody → Bytes
  | .pairCreated token0 token1 pair creator timestamp =>
    token0.bytes ++ token1.bytes ++ pair.bytes ++ creator.bytes ++ encodeSignedWord timestamp
  | .swap isToken0In amountIn amountOut fee state metadata =>
    encodeFlag isToken0In ++ [amountIn, amountOut, fee].flatMap encodeWord ++ state.encode ++ metadata.encode
  | .mint amount0 amount1 liquidity state metadata =>
    [amount0, amount1, liquidity].flatMap encodeWord ++ state.encode ++ metadata.encode
  | .burn amount0 amount1 liquidity state metadata =>
    [amount0, amount1, liquidity].flatMap encodeWord ++ state.encode ++ metadata.encode
  | .adjustLiquidity amount0 amount1 liquidity metadata =>
    [amount0, amount1, liquidity].flatMap encodeWord ++ metadata.encode
  | .updatePair state metadata => state.encode ++ metadata.encode
  | .adjustCollateral amount0 amount1 metadata =>
    encodeSignedWord amount0 ++ encodeSignedWord amount1 ++ metadata.encode
  | .adjustDebt amount0 amount1 metadata =>
    encodeSignedWord amount0 ++ encodeSignedWord amount1 ++ metadata.encode
  | .flashloan amount0 amount1 fee0 fee1 receiver metadata =>
    [amount0, amount1, fee0, fee1].flatMap encodeWord ++ receiver.bytes ++ metadata.encode
  | .positionCreated user pair position timestamp =>
    user.bytes ++ pair.bytes ++ position.bytes ++ encodeSignedWord timestamp
  | .positionUpdated position state metadata => position.bytes ++ state.encode ++ metadata.encode
  | .positionLiquidated position liquidator collateral0 collateral1 debt0 debt1 price bonus state metadata =>
    position.bytes ++ liquidator.bytes ++ [collateral0, collateral1, debt0, debt1, price, bonus].flatMap encodeWord ++
      state.encode ++ metadata.encode

def EventBody.encode (body : EventBody) : Bytes :=
  body.kind.discriminator ++ body.encodeFields

end PairIndex
