import Mathlib.Data.Nat.Digits.Lemmas
import PairIndex.Number.Decimal
import PairIndex.Number.Integer

/-! The decimal text of a number tells the number (`ofDigits_reverse_decimalDigits`). It is made of digits, and does not
begin with a zero unless it is one. -/

namespace PairIndex.Number

theorem decimalDigits_eq (n : Nat) : decimalDigits n = Nat.digits 10 n := by
  fun_induction decimalDigits n with
  | case1 n hpos _ ih => rw [Nat.digits_def' (by decide) hpos, ih]
  | case2 n hzero =>
    have hn : n = 0 := by omega
    rw [hn, Nat.digits_zero]

theorem ofDigits_reverse (digits : List Nat) : ofDigits digits.reverse = Nat.ofDigits 10 digits := by
  rw [ofDigits, List.foldl_reverse]
  induction digits with
  | nil => rfl
  | cons d digits ih => rw [List.foldr_cons, ih, Nat.ofDigits_cons, Nat.add_comm]

theorem ofDigits_reverse_decimalDigits (n : Nat) : ofDigits (decimalDigits n).reverse = n := by
  rw [ofDigits_reverse, decimalDigits_eq, Nat.ofDigits_digits]

theorem lt_of_mem_decimalDigits {n d : Nat} (h : d ∈ decimalDigits n) : d < 10 :=
  Nat.digits_lt_base (by decide) (decimalDigits_eq n ▸ h)

theorem toNat_digitChar {d : Nat} (h : d < 10) : (digitChar d).toNat = 48 + d :=
  (by decide : ∀ d < 10, (digitChar d).toNat = 48 + d) d h

theorem isDigit_digitChar {d : Nat} (h : d < 10) : (digitChar d).isDigit = true :=
  (by decide : ∀ d < 10, (digitChar d).isDigit = true) d h

theorem isDigit_of_mem_decimalChars {n : Nat} {c : Char} (h : c ∈ decimalChars n) : c.isDigit = true := by
  rw [decimalChars] at h
  split at h
  · rw [List.mem_singleton.mp h]
    rfl
  · obtain ⟨d, hd, rfl⟩ := List.mem_map.mp h
    exact isDigit_digitChar (lt_of_mem_decimalDigits (List.mem_reverse.mp hd))

/-- The text of a number begins with a digit, which is zero only if the number is. -/
theorem decimalChars_eq_cons (n : Nat) :
    ∃ c rest, decimalChars n = c :: rest ∧ c.isDigit = true ∧ (c = '0' → n = 0) := by
  cases hchars : decimalChars n with
  | nil =>
    rw [decimalChars] at hchars
    split at hchars
    · cases hchars
    · next hne =>
      rw [List.map_eq_nil_iff, List.reverse_eq_nil_iff, decimalDigits_eq, Nat.digits_eq_nil_iff_eq_zero] at hchars
      exact absurd hchars hne
  | cons c rest =>
    refine ⟨c, rest, rfl, isDigit_of_mem_decimalChars (hchars ▸ List.mem_cons_self), fun hzero => ?_⟩
    by_contra hne
    have hhead : (decimalChars n).head? = some '0' := by rw [hchars, hzero, List.head?_cons]
    rw [decimalChars, if_neg hne, List.head?_map, List.head?_reverse, decimalDigits_eq] at hhead
    obtain ⟨d, hd, hchar⟩ := Option.map_eq_some_iff.mp hhead
    have hlt : d < 10 := Nat.digits_lt_base (by decide) (List.mem_of_getLast? hd)
    have hcode := (toNat_digitChar hlt).symm.trans (congrArg Char.toNat hchar)
    have hd0 : d = 0 := Nat.add_left_cancel hcode
    have hlast := Nat.getLast_digit_ne_zero 10 hne
    rw [List.getLast?_eq_getLast_of_ne_nil (Nat.digits_ne_nil_iff_ne_zero.mpr hne), Option.some.injEq] at hd
    exact hlast (hd.trans hd0)

theorem length_decimalChars_le {n : Nat} (width : Nat) (hwidth : 0 < width) (h : n < 10 ^ width) :
    (decimalChars n).length ≤ width := by
  rw [decimalChars]
  split
  · exact hwidth
  · rw [List.length_map, List.length_reverse, decimalDigits_eq]
    exact (Nat.digits_length_le_iff (by decide) n).mpr h

end PairIndex.Number
