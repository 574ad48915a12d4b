/-! Rounding a quotient of natural numbers to the nearest integer, a half going to the even neighbour. -/

namespace PairIndex.Number

/-- The integer nearest to `n / d`; of two that are equally near, the even one. A quotient by zero is zero. -/
def roundHalfEven (n d : Nat) : Nat :=
  let q := n / d
  let twice := 2 * (n % d)
  if twice < d then q
  else if twice = d then (if q % 2 = 0 then q else q + 1)
  else if d = 0 then 0
  else q + 1

end PairIndex.Number
