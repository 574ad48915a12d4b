import Mathlib.Algebra.Order.Field.Rat
import Mathlib.Tactic.FieldSimp
import Mathlib.Tactic.Linarith
import Mathlib.Tactic.LinearCombination
import Mathlib.Tactic.Positivity
import Mathlib.Tactic.Ring
import PairIndex.Number.Rounding

/-! Rounding to the nearest whole number, a half going to the even neighbour. The rounded number is unique
(`RoundsTo.unique`), `roundHalfEven` gives it for a quotient (`roundsTo_roundHalfEven`), and a quotient that was first
rounded on a finer grid rounds to the same number, as long as that grid is finer than the divisor is large
(`RoundsTo.of_finer`). -/

namespace PairIndex.Number

/-- A whole number that a quantity rounds to: it is at most a half away, and even if it is just a half away. -/
structure RoundsTo (x : ℚ) (n : ℤ) : Prop where
  near : |x - n| ≤ 1 / 2
  even : |x - n| = 1 / 2 → Even n

variable {x : ℚ} {m n : ℤ}

/-- Two different whole numbers that are both at most a half away are next to one another, each just a half away. -/
theorem adjacent_of_near (hm : |x - m| ≤ 1 / 2) (hn : |x - n| ≤ 1 / 2) (hlt : m < n) :
    n = m + 1 ∧ |x - m| = 1 / 2 ∧ |x - n| = 1 / 2 := by
  obtain ⟨-, hm'⟩ := abs_le.mp hm
  obtain ⟨hn', -⟩ := abs_le.mp hn
  have hstep : (n : ℚ) ≤ m + 1 := by linarith
  have heq : n = m + 1 := by
    have hle : n ≤ m + 1 := by exact_mod_cast hstep
    omega
  have hcast : (n : ℚ) = m + 1 := by exact_mod_cast heq
  have hhalf : x - m = 1 / 2 := by linarith
  have hhalf' : x - n = -(1 / 2) := by linarith
  refine ⟨heq, ?_, ?_⟩
  · rw [hhalf, abs_of_pos (by norm_num)]
  · rw [hhalf', abs_neg, abs_of_pos (by norm_num)]

theorem RoundsTo.not_lt (hm : RoundsTo x m) (hn : RoundsTo x n) : ¬m < n := by
  intro hlt
  obtain ⟨heq, htie, htie'⟩ := adjacent_of_near hm.near hn.near hlt
  obtain ⟨i, hi⟩ := hm.even htie
  obtain ⟨j, hj⟩ := hn.even htie'
  omega

/-- A quantity rounds to one number only. -/
theorem RoundsTo.unique (hm : RoundsTo x m) (hn : RoundsTo x n) : m = n :=
  Int.le_antisymm (Int.not_lt.mp (hn.not_lt hm)) (Int.not_lt.mp (hm.not_lt hn))

theorem RoundsTo.eq_of_whole {w : ℤ} (h : RoundsTo w n) : n = w :=
  h.unique ⟨by simp, by simp⟩

/-- What it means for a quotient to round to a whole number, without division. -/
theorem roundsTo_div_iff {a d : ℕ} (hd : 0 < d) :
    RoundsTo ((a : ℚ) / d) n ↔
      |2 * (a : ℤ) - 2 * n * d| ≤ d ∧ (|2 * (a : ℤ) - 2 * n * d| = d → Even n) := by
  have hpos : (0 : ℚ) < d := by exact_mod_cast hd
  have hscaled : (|2 * (a : ℤ) - 2 * n * d| : ℤ) = 2 * d * |(a : ℚ) / d - n| := by
    have hinner : 2 * (a : ℚ) - 2 * n * d = 2 * d * (a / d - n) := by field_simp
    push_cast
    rw [hinner, abs_mul, abs_of_pos (by positivity)]
  have hnear : |(a : ℚ) / d - n| ≤ 1 / 2 ↔ |2 * (a : ℤ) - 2 * n * d| ≤ d := by
    rw [← Int.cast_le (R := ℚ), hscaled, Int.cast_natCast]
    constructor <;> intro h <;> nlinarith
  have htie : |(a : ℚ) / d - n| = 1 / 2 ↔ |2 * (a : ℤ) - 2 * n * d| = d := by
    rw [← Int.cast_inj (α := ℚ), hscaled, Int.cast_natCast]
    constructor <;> intro h
    · rw [h]
      ring
    · refine mul_left_cancel₀ (mul_pos two_pos hpos).ne' ?_
      rw [h]
      ring
  rw [← hnear, ← htie]
  exact ⟨fun h => ⟨h.near, h.even⟩, fun h => ⟨h.1, h.2⟩⟩

/-- The rounded quotient is what the exact quotient rounds to. -/
theorem roundsTo_roundHalfEven (a : ℕ) {d : ℕ} (hd : 0 < d) : RoundsTo ((a : ℚ) / d) (roundHalfEven a d) := by
  rw [roundsTo_div_iff hd]
  have hrest : a % d < d := Nat.mod_lt a hd
  have hdivision : (a : ℤ) = d * (a / d : ℕ) + (a % d : ℕ) := by exact_mod_cast (Nat.div_add_mod a d).symm
  simp only [roundHalfEven]
  generalize a / d = q, a % d = r at hrest hdivision ⊢
  have hdown : 2 * (a : ℤ) - 2 * (q : ℕ) * d = 2 * r := by
    rw [hdivision]
    ring
  have hup : 2 * (a : ℤ) - 2 * (q + 1 : ℕ) * d = -(2 * (d - r)) := by
    rw [hdivision]
    push_cast
    ring
  split_ifs with hless htie heven hzero
  · rw [hdown, abs_of_nonneg (by omega)]
    omega
  · rw [hdown, abs_of_nonneg (by omega)]
    exact ⟨by omega, fun _ => ⟨(q / 2 : ℕ), by omega⟩⟩
  · rw [hup, abs_neg, abs_of_nonneg (by omega)]
    exact ⟨by omega, fun _ => ⟨((q + 1) / 2 : ℕ), by omega⟩⟩
  · omega
  · rw [hup, abs_neg, abs_of_nonneg (by omega)]
    omega

/-- A quotient that is rounded on a grid of `1 / t` is not moved over a half, if the divisor is below `t`: a quotient that
is no half is further from each half than that. -/
theorem RoundsTo.near_of_finer {a d t : ℕ} {s : ℤ} (hd : 0 < d) (hfine : d < t) (hs : RoundsTo ((a * t : ℕ) / d) s)
    (hn : |2 * s - 2 * n * t| ≤ t) : |2 * (a : ℤ) - 2 * n * d| ≤ d := by
  obtain ⟨hs, -⟩ := (roundsTo_div_iff hd).mp hs
  push_cast at hs
  have hsplit : (2 * (a : ℤ) - 2 * n * d) * t = (2 * (a * t) - 2 * s * d) + (2 * s - 2 * n * t) * d := by ring
  have hscaled : |2 * (a : ℤ) - 2 * n * d| * t < (d + 1) * t := by
    calc |2 * (a : ℤ) - 2 * n * d| * t
        = |(2 * (a : ℤ) - 2 * n * d) * t| := by rw [abs_mul, Nat.abs_cast]
      _ ≤ |2 * ((a : ℤ) * t) - 2 * s * d| + |2 * s - 2 * n * t| * d := by
          rw [hsplit]
          exact (abs_add_le _ _).trans (by rw [abs_mul (2 * s - 2 * n * t), Nat.abs_cast])
      _ ≤ d + t * d := add_le_add hs (mul_le_mul_of_nonneg_right hn (Int.natCast_nonneg d))
      _ < (d + 1) * t := by
          have hfine' : (d : ℤ) < t := by exact_mod_cast hfine
          linarith
  exact Int.le_of_lt_add_one (lt_of_mul_lt_mul_right hscaled (Int.natCast_nonneg t))

/-- A half lies on a grid of `1 / t` for an even `t`, so that rounding on that grid keeps its distance. -/
theorem RoundsTo.half_of_finer {a d t : ℕ} {s : ℤ} (hd : 0 < d) (heven : Even t) (hs : RoundsTo ((a * t : ℕ) / d) s)
    (hhalf : |2 * (a : ℤ) - 2 * n * d| = d) : |2 * s - 2 * n * t| = t := by
  obtain ⟨sign, hsign, hunit⟩ : ∃ sign : ℤ, 2 * (a : ℤ) - 2 * n * d = sign * d ∧ |sign| = 1 := by
    rcases (abs_eq (Int.natCast_nonneg d)).mp hhalf with hpos | hneg
    · exact ⟨1, by rw [hpos, one_mul], rfl⟩
    · exact ⟨-1, by rw [hneg, neg_one_mul], rfl⟩
  obtain ⟨half, rfl⟩ := heven
  have hgrid : ((a * (half + half) : ℕ) : ℤ) = (2 * n + sign) * half * d := by
    push_cast
    linear_combination (half : ℤ) * hsign
  have hwhole : ((a * (half + half) : ℕ) : ℚ) / d = ((2 * n + sign) * half : ℤ) := by
    have hpos : (d : ℚ) ≠ 0 := by exact_mod_cast hd.ne'
    rw [div_eq_iff hpos]
    exact_mod_cast hgrid
  rw [hwhole] at hs
  have hexact : s = (2 * n + sign) * half := hs.eq_of_whole
  have hdistance : 2 * s - 2 * n * (half + half : ℕ) = (half + half : ℕ) * sign := by
    rw [hexact]
    push_cast
    ring
  rw [hdistance, abs_mul, hunit, mul_one, Nat.abs_cast]

/-- A quotient that is rounded on a grid of `1 / t` and then to a whole number rounds to that number at once, if the grid
has the halves and the divisor is below `t`. -/
theorem RoundsTo.of_finer {a d t s : ℕ} (hd : 0 < d) (hfine : d < t) (heven : Even t)
    (hs : RoundsTo ((a * t : ℕ) / d) s) (hn : RoundsTo ((s : ℚ) / t) n) : RoundsTo ((a : ℚ) / d) n := by
  obtain ⟨hnear, htie⟩ := (roundsTo_div_iff (Nat.zero_lt_of_lt hfine)).mp hn
  rw [roundsTo_div_iff hd]
  exact ⟨hs.near_of_finer hd hfine hnear, fun hhalf => htie (hs.half_of_finer hd heven hhalf)⟩

end PairIndex.Number
