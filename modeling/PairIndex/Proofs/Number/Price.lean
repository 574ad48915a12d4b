import PairIndex.Number.Price

/-! Prices of words. Rounding moves a quotient by at most one unit, so the ratio of two unsigned words stays far below
the number of digits that a price may have (`Price.ofRatio_words`). -/

namespace PairIndex

theorem Number.tenTo_add (m n : Nat) : tenTo (m + n) = tenTo m * tenTo n :=
  Nat.pow_add 10 m n

theorem Number.roundHalfEven_le (n d : Nat) : roundHalfEven n d ≤ n / d + 1 := by
  simp only [roundHalfEven]
  generalize n / d = q
  repeat' split
  all_goals omega

namespace Price

open Number

/-- A ratio is at most one above the numerator, whatever the divisor and the roundings. -/
theorem ratioUnits_le (n d : Nat) : ratioUnits n d ≤ (n + 1) * scale := by
  unfold ratioUnits
  by_cases hzero : n = 0
  · simp [hzero]
  · rw [if_neg hzero]
    generalize significantPlaces n d (precision + (decimalDigits d).length) 0 = k
    have hsignificant : roundHalfEven (n * tenTo k) d ≤ n * tenTo k + 1 :=
      Nat.le_trans (roundHalfEven_le _ d) (Nat.succ_le_succ (Nat.div_le_self _ d))
    by_cases hplaces : k ≤ places
    · have hscale : scale = tenTo k * tenTo (places - k) := by
        rw [scale, ← tenTo_add, Nat.add_sub_cancel' hplaces]
      have hpos : 0 < tenTo k := tenTo_pos k
      rw [if_pos hplaces, hscale, ← Nat.mul_assoc, Nat.succ_mul]
      exact Nat.mul_le_mul_right _ (Nat.le_trans hsignificant (Nat.add_le_add_left hpos _))
    · have hscale : tenTo k = scale * tenTo (k - places) := by
        rw [scale, ← tenTo_add, Nat.add_sub_cancel' (Nat.le_of_not_le hplaces)]
      have hrest : 0 < tenTo (k - places) := tenTo_pos _
      rw [if_neg hplaces]
      calc roundHalfEven (roundHalfEven (n * tenTo k) d) (tenTo (k - places))
          ≤ roundHalfEven (n * tenTo k) d / tenTo (k - places) + 1 := roundHalfEven_le ..
        _ ≤ (n * tenTo k + tenTo (k - places)) / tenTo (k - places) + 1 :=
            Nat.succ_le_succ (Nat.div_le_div_right (Nat.le_trans hsignificant (Nat.add_le_add_left hrest _)))
        _ = n * scale + 1 + 1 := by
            rw [Nat.add_div_right _ hrest, hscale, ← Nat.mul_assoc, Nat.mul_div_cancel _ hrest]
        _ ≤ (n + 1) * scale := by
            have htwo : 1 + 1 ≤ scale := by decide
            rw [Nat.succ_mul]
            omega

/-- The ratio of two unsigned words is a price, unless the divisor is zero. -/
theorem ofRatio_words (numerator denominator : UInt64) :
    ofRatio numerator.toNat denominator.toNat = .ok (ofWords numerator denominator) := by
  have hfits : ratioUnits (numerator.toNat : Int).natAbs (denominator.toNat : Int).natAbs < tenTo precision := by
    rw [Int.natAbs_natCast, Int.natAbs_natCast]
    calc ratioUnits numerator.toNat denominator.toNat
        ≤ (numerator.toNat + 1) * scale := ratioUnits_le ..
      _ ≤ twoTo 64 * scale := Nat.mul_le_mul_right _ numerator.toNat_lt
      _ < tenTo precision := by decide
  have hprice : ∃ price, ofRatio numerator.toNat denominator.toNat = .ok price := by
    rw [ofRatio]
    by_cases hzero : (denominator.toNat : Int) = 0
    · exact ⟨none, if_pos hzero⟩
    · exact ⟨_, (if_neg hzero).trans (if_pos hfits)⟩
  obtain ⟨price, hprice⟩ := hprice
  rw [ofWords, hprice]

end Price
end PairIndex
