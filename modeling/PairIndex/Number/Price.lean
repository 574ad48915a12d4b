import PairIndex.Number.Decimal
import PairIndex.Number.Power
import PairIndex.Number.Rounding

/-! Prices with eighteen decimal places, and the ratio of two amounts as a price. The ratio is first rounded to sixty
significant digits and then to eighteen places; a half goes to the even neighbour both times. -/

namespace PairIndex

/-- A decimal number with eighteen places. The sign is kept apart, so that a ratio that rounds to nothing from below
stays negative. -/
structure Price where
  /-- Whether a minus sign stands in front. -/
  negative : Bool
  /-- The magnitude in units of the last place. -/
  units : Nat
  deriving DecidableEq, Repr

namespace Price

def places : Nat :=
  18

/-- The number of significant digits that a ratio is worked out to and that a price may have. -/
def precision : Nat :=
  60

/-- The units that make one. -/
def scale : Nat :=
  Number.tenTo places

/-- Why there is no price. -/
inductive RatioError where
  /-- The rounded ratio has more digits than a price may have. -/
  | tooManyDigits
  deriving DecidableEq, Repr

/-- The least number of places, from `k` on, at which `n / d` has as many digits as the precision asks for, looking at
most `fuel` places further. -/
def significantPlaces (n d : Nat) : Nat → Nat → Nat
  | 0, k => k
  | fuel + 1, k => if d * Number.tenTo (precision - 1) ≤ n * Number.tenTo k then k else significantPlaces n d fuel (k + 1)

/-- The magnitude of `n / d` in units, rounded twice, for a divisor that is not zero. -/
def ratioUnits (n d : Nat) : Nat :=
  if n = 0 then 0
  else
    let k := significantPlaces n d (precision + (Number.decimalDigits d).length) 0
    let significant := Number.roundHalfEven (n * Number.tenTo k) d
    if k ≤ places then significant * Number.tenTo (places - k)
    else Number.roundHalfEven significant (Number.tenTo (k - places))

/-- The ratio of two amounts; there is none to zero. -/
def ofRatio (numerator denominator : Int) : Except RatioError (Option Price) :=
  if denominator = 0 then .ok none
  else
    let units := ratioUnits numerator.natAbs denominator.natAbs
    if units < Number.tenTo precision then
      .ok (some ⟨(decide (numerator < 0)) != (decide (denominator < 0)), units⟩)
    else .error .tooManyDigits

/-- The ratio of two unsigned words, which always fits. -/
def ofWords (numerator denominator : UInt64) : Option Price :=
  match ofRatio numerator.toNat denominator.toNat with
  | .ok price => price
  | .error _ => none

/-- Sign, whole part, point and all eighteen places. -/
def toChars (p : Price) : List Char :=
  (if p.negative then ['-'] else []) ++ Number.decimalChars (p.units / scale) ++
    '.' :: Number.paddedChars places (p.units % scale)

def toText (p : Price) : String :=
  String.ofList p.toChars

end Price
end PairIndex
