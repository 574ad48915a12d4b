import PairIndex.Proofs.Number.Decimal
import PairIndex.Proofs.Number.Price
import PairIndex.Proofs.Number.Rounding

/-! The ratio of two words is rounded correctly. It is worked out to sixty significant digits first, which is a grid that
is finer than any word is large (`Price.exists_ratioUnits_eq`), so that the second rounding gives what rounding the exact
ratio once would give (`Price.ofRatio_rounded_once`). -/

namespace PairIndex

theorem Number.tenTo_succ (n : ℕ) : tenTo (n + 1) = tenTo n * 10 :=
  Nat.pow_succ 10 n

theorem Number.lt_tenTo_length (n : ℕ) : n < tenTo (decimalDigits n).length := by
  rw [decimalDigits_eq]
  exact Nat.lt_base_pow_length_digits (by decide)

namespace Price

open Number

/-- What a price stands for. -/
def value (p : Price) : ℚ :=
  (if p.negative then -1 else 1) * (p.units / 10 ^ places)

/-- The places are the first at which the quotient has as many digits as are asked for, if it has them at the last one
that is looked at. -/
theorem significantPlaces_spec {n d fuel k : ℕ} (h : d * tenTo (precision - 1) ≤ n * tenTo (k + fuel)) :
    d * tenTo (precision - 1) ≤ n * tenTo (significantPlaces n d fuel k) ∧
      ∀ i, k ≤ i → i < significantPlaces n d fuel k → n * tenTo i < d * tenTo (precision - 1) := by
  induction fuel generalizing k with
  | zero => exact ⟨h, fun i hle hlt => absurd hlt (Nat.not_lt.mpr hle)⟩
  | succ fuel ih =>
    rw [significantPlaces]
    split_ifs with hfirst
    · exact ⟨hfirst, fun i hle hlt => absurd hlt (Nat.not_lt.mpr hle)⟩
    · obtain ⟨hreached, hbefore⟩ := ih (k := k + 1) (by rwa [Nat.add_right_comm, Nat.add_assoc])
      refine ⟨hreached, fun i hle hlt => ?_⟩
      rcases Nat.eq_or_lt_of_le hle with rfl | hlater
      · exact Nat.not_le.mp hfirst
      · exact hbefore i hlater hlt

/-- Sixty digits are found within the places that are looked at. -/
theorem precision_reached {n : ℕ} (hn : 0 < n) (d : ℕ) :
    d * tenTo (precision - 1) ≤ n * tenTo (0 + (precision + (decimalDigits d).length)) := by
  have hd := Nat.le_of_lt (lt_tenTo_length d)
  have hprecision : tenTo (precision - 1) ≤ tenTo precision := by decide
  calc d * tenTo (precision - 1)
      ≤ tenTo (decimalDigits d).length * tenTo precision := Nat.mul_le_mul hd hprecision
    _ = tenTo (0 + (precision + (decimalDigits d).length)) := by rw [Nat.zero_add, tenTo_add, Nat.mul_comm]
    _ ≤ n * tenTo (0 + (precision + (decimalDigits d).length)) := Nat.le_mul_of_pos_left _ hn

/-- What a word has at the places of a price is far below what sixty digits begin with. -/
theorem words_below_precision {n : ℕ} (hword : n < 2 ^ 64) : n * scale < tenTo (precision - 1) :=
  calc n * scale < 2 ^ 64 * scale := Nat.mul_lt_mul_of_pos_right hword (tenTo_pos places)
    _ ≤ tenTo (precision - 1) := by decide

/-- A ratio of words is worked out to sixty digits, which is so many places behind those of a price that the grid is finer
than the divisor is large, and is then rounded to the places of a price. -/
theorem exists_ratioUnits_eq {n d : ℕ} (hn : 0 < n) (hword : n < 2 ^ 64) (hd : 0 < d) :
    ∃ k, 0 < k ∧ d < tenTo k ∧ d * tenTo (precision - 1) ≤ n * tenTo (places + k) ∧
      n * tenTo (places + k) < d * tenTo precision ∧
      ratioUnits n d = roundHalfEven (roundHalfEven (n * tenTo (places + k)) d) (tenTo k) := by
  obtain ⟨hreached, hbefore⟩ := significantPlaces_spec (precision_reached hn d)
  have hunits : ratioUnits n d =
      (let k := significantPlaces n d (precision + (decimalDigits d).length) 0
      let significant := roundHalfEven (n * tenTo k) d
      if k ≤ places then significant * tenTo (places - k) else roundHalfEven significant (tenTo (k - places))) := by
    rw [ratioUnits, if_neg hn.ne']
  rw [hunits]
  generalize significantPlaces n d (precision + (decimalDigits d).length) 0 = total at hreached hbefore ⊢
  have hsmall := words_below_precision hword
  have hmore : places < total := by
    by_contra hle
    have hless : n * tenTo total ≤ n * scale :=
      Nat.mul_le_mul_left n (Nat.pow_le_pow_right (by decide) (Nat.not_lt.mp hle))
    have hdigits : tenTo (precision - 1) ≤ d * tenTo (precision - 1) := Nat.le_mul_of_pos_left _ hd
    omega
  obtain ⟨k, rfl⟩ := Nat.exists_eq_add_of_le hmore.le
  have hk : 0 < k := by omega
  refine ⟨k, hk, ?_, hreached, ?_, ?_⟩
  · have hgrid : d * tenTo (precision - 1) < tenTo k * tenTo (precision - 1) :=
      calc d * tenTo (precision - 1) ≤ n * tenTo (places + k) := hreached
        _ = n * scale * tenTo k := by rw [tenTo_add, scale, Nat.mul_assoc]
        _ < tenTo (precision - 1) * tenTo k := Nat.mul_lt_mul_of_pos_right hsmall (tenTo_pos k)
        _ = tenTo k * tenTo (precision - 1) := Nat.mul_comm _ _
    exact Nat.lt_of_mul_lt_mul_right hgrid
  · obtain ⟨j, rfl⟩ := Nat.exists_eq_add_of_lt hk
    have hlast := hbefore (places + j) (Nat.zero_le _) (by omega)
    have hten : tenTo (places + (0 + j + 1)) = tenTo (places + j) * 10 := by
      rw [Nat.zero_add, ← Nat.add_assoc, tenTo_succ]
    have hprecision : tenTo precision = tenTo (precision - 1) * 10 := tenTo_succ _
    rw [hten, hprecision, ← Nat.mul_assoc, ← Nat.mul_assoc]
    exact Nat.mul_lt_mul_of_pos_right hlast (by decide)
  · simp only [if_neg (Nat.not_le.mpr hmore), Nat.add_sub_cancel_left]

/-- The units of a ratio of words are those that the exact ratio rounds to. -/
theorem roundsTo_ratioUnits {n d : ℕ} (hword : n < 2 ^ 64) (hd : 0 < d) :
    RoundsTo ((n : ℚ) / d * 10 ^ places) (ratioUnits n d) := by
  rcases Nat.eq_zero_or_pos n with rfl | hn
  · rw [ratioUnits, if_pos rfl]
    exact ⟨by simp, by simp⟩
  · obtain ⟨k, hk, hfine, -, -, hunits⟩ := exists_ratioUnits_eq hn hword hd
    have heven : Even (tenTo k) := by
      obtain ⟨j, rfl⟩ := Nat.exists_eq_add_of_lt hk
      exact ⟨tenTo (0 + j) * 5, by rw [tenTo_succ, ← Nat.mul_add]⟩
    have hgrid : n * tenTo (places + k) = n * scale * tenTo k := by rw [tenTo_add, scale, Nat.mul_assoc]
    have hscale : (n : ℚ) / d * 10 ^ places = (n * scale : ℕ) / d := by
      have hten : (scale : ℚ) = 10 ^ places := by norm_num [scale, tenTo, places]
      rw [Nat.cast_mul, hten]
      ring
    rw [hscale, hunits, hgrid]
    exact (roundsTo_roundHalfEven _ hd).of_finer hd hfine heven (roundsTo_roundHalfEven _ (tenTo_pos k))

/-- The ratio of two words is the price with the units that the ratio comes to. -/
theorem ofRatio_eq_units (numerator : UInt64) {denominator : UInt64} (h : 0 < denominator.toNat) :
    ofRatio numerator.toNat denominator.toNat =
      .ok (some ⟨false, ratioUnits numerator.toNat denominator.toNat⟩) := by
  have hzero : (denominator.toNat : ℤ) ≠ 0 := by omega
  have hprice := ofRatio_words numerator denominator
  rw [hprice]
  rw [ofRatio, if_neg hzero] at hprice
  simp only [Int.natAbs_natCast] at hprice
  split_ifs at hprice with hfits
  rw [← hprice]
  simp [Int.not_lt.mpr (Int.natCast_nonneg _)]

/-- The ratio of two words, but for a divisor of zero, is always a price, and it is the exact ratio rounded once to the
places of a price, a half going to the even neighbour. -/
theorem ofRatio_rounded_once (numerator denominator : UInt64) (h : 0 < denominator) :
    ∃ price, ofRatio numerator.toNat denominator.toNat = .ok (some price) ∧ price.negative = false ∧
      ∀ units : ℤ, RoundsTo ((numerator.toNat : ℚ) / denominator.toNat * 10 ^ 18) units ↔
        price.value = units / 10 ^ 18 := by
  have hpos : 0 < denominator.toNat := UInt64.lt_iff_toNat_lt.mp h
  have hrounds := roundsTo_ratioUnits numerator.toNat_lt hpos
  refine ⟨_, ofRatio_eq_units numerator hpos, rfl, fun units => ?_⟩
  have hvalue : value ⟨false, ratioUnits numerator.toNat denominator.toNat⟩ =
      (ratioUnits numerator.toNat denominator.toNat : ℤ) / 10 ^ 18 := by
    simp [value, places]
  rw [hvalue, div_left_inj' (by norm_num), Int.cast_inj]
  exact ⟨fun hunits => hrounds.unique hunits, fun hunits => hunits ▸ hrounds⟩

/-- One and a half units of the last place are two. -/
theorem ofRatio_rounded_once_half :
    (0 : UInt64) < 2000000000000000000 ∧
      ∃ price, ofRatio (3 : UInt64).toNat (2000000000000000000 : UInt64).toNat = .ok (some price) ∧
        price.value = 2 / 10 ^ 18 := by
  have hpos : (0 : UInt64) < 2000000000000000000 := by decide
  obtain ⟨price, hprice, -, hunits⟩ := ofRatio_rounded_once 3 2000000000000000000 hpos
  have hhalf : RoundsTo (((3 : UInt64).toNat : ℚ) / (2000000000000000000 : UInt64).toNat * 10 ^ 18) 2 := by
    have hratio : ((3 : UInt64).toNat : ℚ) / (2000000000000000000 : UInt64).toNat * 10 ^ 18 = 3 / 2 := by
      have hthree : (3 : UInt64).toNat = 3 := rfl
      have hdivisor : (2000000000000000000 : UInt64).toNat = 2000000000000000000 := rfl
      rw [hthree, hdivisor]
      norm_num
    rw [hratio]
    exact ⟨by norm_num [abs_of_neg], fun _ => even_two⟩
  exact ⟨hpos, price, hprice, (hunits 2).mp hhalf⟩

end Price
end PairIndex
