import Mathlib.Data.List.TakeWhile
import Mathlib.Data.Nat.Digits.Lemmas
import PairIndex.Bytes.Base58

/-! Base-58 text tells the bytes that it stands for (`Base58.decode?_encode`), the zero bytes in front included, so that
different byte strings have different texts (`Base58.encode_injective`). A text is not longer than it takes to have a text
for every byte string of that length (`Base58.length_encode_le`). -/

namespace PairIndex.Base58

theorem digits_eq {base : Nat} (hbase : 1 < base) (n : Nat) : digits base n = Nat.digits base n := by
  induction n using Nat.strongRecOn with
  | ind n ih =>
    rw [digits]
    by_cases hn : 0 < n
    · rw [dif_pos ⟨hbase, hn⟩, ih _ (Nat.div_lt_self hn hbase), Nat.digits_def' hbase hn]
    · have hzero : n = 0 := by omega
      simp [hzero]

/-! ## Numbers of bytes -/

theorem toNatBE_eq_ofDigits (bytes : Bytes) : bytes.toNatBE = Nat.ofDigits 256 (bytes.reverse.map UInt8.toNat) := by
  induction bytes using List.reverseRecOn with
  | nil => rfl
  | append_singleton front b ih =>
    have hsnoc : Bytes.toNatBE (front ++ [b]) = 256 * Bytes.toNatBE front + b.toNat := by
      rw [Bytes.toNatBE, List.foldl_append]
      rfl
    rw [hsnoc, ih, List.reverse_append, List.reverse_singleton, List.singleton_append, List.map_cons,
      Nat.ofDigits_cons, Nat.add_comm]

theorem lt_of_mem_map_toNat {bytes : Bytes} {d : Nat} (h : d ∈ bytes.reverse.map UInt8.toNat) : d < 256 := by
  obtain ⟨b, -, rfl⟩ := List.mem_map.mp h
  exact b.toNat_lt

/-- Zero bytes in front do not count. -/
theorem toNatBE_replicate_append (k : Nat) (bytes : Bytes) :
    Bytes.toNatBE (List.replicate k 0 ++ bytes) = bytes.toNatBE := by
  induction k with
  | zero => rfl
  | succ k ih => exact ih

/-- A number has the digits of its bytes, if the first of them is not zero. -/
theorem digits_toNatBE {bytes : Bytes} (h : bytes.head? ≠ some 0) :
    digits 256 bytes.toNatBE = bytes.reverse.map UInt8.toNat := by
  rw [digits_eq (by decide), toNatBE_eq_ofDigits]
  refine Nat.digits_ofDigits 256 (by decide) _ (fun _ => lt_of_mem_map_toNat) (fun hne => ?_)
  cases bytes with
  | nil => exact absurd rfl hne
  | cons b rest =>
    have hb : b ≠ 0 := fun hzero => h (congrArg some hzero)
    simpa [← UInt8.toNat_inj] using hb

theorem ofNat_digits_toNatBE {bytes : Bytes} (h : bytes.head? ≠ some 0) :
    (digits 256 bytes.toNatBE).reverse.map UInt8.ofNat = bytes := by
  rw [digits_toNatBE h, ← List.map_reverse, List.reverse_reverse, List.map_map]
  exact (List.map_congr_left fun b _ => UInt8.ofNat_toNat).trans (List.map_id bytes)

/-! ## Numbers of characters -/

theorem digitValue?_digitChar {d : Nat} (h : d < 58) : digitValue? (digitChar d) = some d := by
  have hall : ∀ d : Fin 58, digitValue? (digitChar d) = some d.val := by decide +kernel
  exact hall ⟨d, h⟩

theorem digitChar_eq_one_iff {d : Nat} (h : d < 58) : digitChar d = '1' ↔ d = 0 := by
  have hall : ∀ d : Fin 58, digitChar d = '1' ↔ d.val = 0 := by decide +kernel
  exact hall ⟨d, h⟩

theorem number?_map_digitChar {ds : List Nat} (h : ∀ d ∈ ds, d < 58) :
    number? (ds.reverse.map digitChar) = some (Nat.ofDigits 58 ds) := by
  induction ds with
  | nil => rfl
  | cons d ds ih =>
    have hrest := ih fun d' hd' => h d' (List.mem_cons_of_mem d hd')
    rw [number?] at hrest ⊢
    rw [List.reverse_cons, List.map_append, List.foldlM_append, hrest]
    have hd := digitValue?_digitChar (h d List.mem_cons_self)
    simp [hd, Nat.ofDigits_cons, Nat.add_comm]

/-- Ones in front do not count. -/
theorem number?_replicate_append (k : Nat) (chars : List Char) :
    number? (List.replicate k '1' ++ chars) = number? chars := by
  induction k with
  | zero => rfl
  | succ k ih =>
    have hone : digitValue? '1' = some 0 := by decide +kernel
    rw [number?] at ih ⊢
    rw [List.replicate_succ, List.cons_append, List.foldlM_cons, hone]
    exact ih

/-! ## Texts -/

theorem takeWhile_replicate_append {α : Type} [DecidableEq α] (k : Nat) {a : α} {rest : List α}
    (h : rest.head? ≠ some a) : (List.replicate k a ++ rest).takeWhile (· == a) = List.replicate k a := by
  have hrest : rest.takeWhile (· == a) = [] := by
    cases rest with
    | nil => rfl
    | cons b rest =>
      have hb : b ≠ a := fun hb => h (congrArg some hb)
      simp [hb]
  rw [List.takeWhile_append_of_pos (by simp), hrest, List.append_nil]

theorem exists_eq_leadingZeros_append (bytes : Bytes) :
    ∃ rest, bytes = List.replicate (leadingZeros bytes) 0 ++ rest ∧ rest.head? ≠ some 0 := by
  refine ⟨bytes.dropWhile (· == 0), ?_, fun hhead => ?_⟩
  · have hzeros : bytes.takeWhile (· == 0) = List.replicate (leadingZeros bytes) 0 :=
      List.eq_replicate_of_mem fun b hb => by simpa using List.mem_takeWhile_imp hb
    rw [← hzeros, List.takeWhile_append_dropWhile]
  · have hstop := List.head?_dropWhile_not (· == (0 : UInt8)) bytes
    rw [hhead] at hstop
    simp at hstop

/-- The highest digit of a number is not zero, so that no character `1` is in front of its digits. -/
theorem head?_digits_ne (n : Nat) : ((digits 58 n).reverse.map digitChar).head? ≠ some '1' := by
  intro h
  rw [digits_eq (by decide), List.head?_map, List.head?_reverse, Option.map_eq_some_iff] at h
  obtain ⟨d, hlast, hd⟩ := h
  have hmem : d ∈ Nat.digits 58 n := List.mem_of_getLast? hlast
  have hzero : d = 0 := (digitChar_eq_one_iff (Nat.digits_lt_base (by decide) hmem)).mp hd
  have hn : n ≠ 0 := by
    rintro rfl
    rw [Nat.digits_zero] at hmem
    cases hmem
  have hget := (List.getLast_eq_iff_getLast?_eq_some (List.ne_nil_of_mem hmem)).mpr hlast
  exact Nat.getLast_digit_ne_zero 58 hn (hget.trans hzero)

/-- Reading the text of some bytes gives these bytes. -/
theorem decode?_encode (bytes : Bytes) : decode? (encode bytes) = some bytes := by
  obtain ⟨rest, hbytes, hrest⟩ := exists_eq_leadingZeros_append bytes
  have hvalue : bytes.toNatBE = Bytes.toNatBE rest := by
    rw [hbytes, toNatBE_replicate_append]
  have hdigits : ∀ d ∈ digits 58 (Bytes.toNatBE rest), d < 58 := by
    intro d hd
    rw [digits_eq (by decide)] at hd
    exact Nat.digits_lt_base (by decide) hd
  have hnumber : number? (encodeChars bytes) = some (Bytes.toNatBE rest) := by
    rw [encodeChars, number?_replicate_append, hvalue, number?_map_digitChar hdigits, digits_eq (by decide),
      Nat.ofDigits_digits]
  have hones : ((encodeChars bytes).takeWhile (· == '1')).length = leadingZeros bytes := by
    rw [encodeChars, takeWhile_replicate_append _ (head?_digits_ne _), List.length_replicate]
  rw [decode?, encode, String.toList_ofList, decodeChars?, hnumber]
  simp only [Option.bind_eq_bind, Option.bind_some, hones, ofNat_digits_toNatBE hrest, ← hbytes]
  rfl

theorem encode_injective : Function.Injective encode := by
  intro bytes bytes' h
  have hsome : some bytes = some bytes' := by rw [← decode?_encode bytes, h, decode?_encode]
  exact Option.some.inj hsome

/-! ## Lengths -/

theorem toNatBE_lt (bytes : Bytes) : bytes.toNatBE < 256 ^ bytes.length := by
  have hlength : (bytes.reverse.map UInt8.toNat).length = bytes.length := by
    rw [List.length_map, List.length_reverse]
  rw [toNatBE_eq_ofDigits, ← hlength]
  exact Nat.ofDigits_lt_base_pow_length (by decide) fun _ => lt_of_mem_map_toNat

/-- A zero byte in front takes a character, which is less room than it takes in a number. -/
theorem pow_sub_le {n zeros width : ℕ} (hzeros : zeros ≤ n) (hwidth : n ≤ width) (h : 256 ^ n ≤ 58 ^ width) :
    256 ^ (n - zeros) ≤ 58 ^ (width - zeros) := by
  have hscaled : 256 ^ (n - zeros) * 58 ^ zeros ≤ 58 ^ (width - zeros) * 58 ^ zeros :=
    calc 256 ^ (n - zeros) * 58 ^ zeros
        ≤ 256 ^ (n - zeros) * 256 ^ zeros := Nat.mul_le_mul_left _ (Nat.pow_le_pow_left (by decide) zeros)
      _ = 256 ^ n := by rw [← Nat.pow_add, Nat.sub_add_cancel hzeros]
      _ ≤ 58 ^ width := h
      _ = 58 ^ (width - zeros) * 58 ^ zeros := by rw [← Nat.pow_add, Nat.sub_add_cancel (hzeros.trans hwidth)]
  exact Nat.le_of_mul_le_mul_right hscaled (Nat.pow_pos (by decide))

theorem le_of_pow_le {n width : ℕ} (h : 256 ^ n ≤ 58 ^ width) : n ≤ width := by
  have hpow : 256 ^ n ≤ 256 ^ width := h.trans (Nat.pow_le_pow_left (by decide) width)
  exact (Nat.pow_le_pow_iff_right (by decide)).mp hpow

/-- A text takes no more characters than are enough to tell all byte strings of its length apart. -/
theorem length_encode_le {bytes : Bytes} {width : ℕ} (h : 256 ^ bytes.length ≤ 58 ^ width) :
    (encode bytes).length ≤ width := by
  obtain ⟨rest, hbytes, -⟩ := exists_eq_leadingZeros_append bytes
  have hlength : bytes.length = leadingZeros bytes + rest.length := by
    have hboth := congrArg List.length hbytes
    rwa [List.length_append, List.length_replicate] at hboth
  have hvalue : bytes.toNatBE = Bytes.toNatBE rest := by
    rw [hbytes, toNatBE_replicate_append]
  have hwidth := le_of_pow_le h
  have hdigits : (digits 58 bytes.toNatBE).length ≤ width - leadingZeros bytes := by
    rw [digits_eq (by decide), Nat.digits_length_le_iff (by decide), hvalue]
    calc Bytes.toNatBE rest < 256 ^ rest.length := toNatBE_lt rest
      _ = 256 ^ (bytes.length - leadingZeros bytes) := by rw [hlength, Nat.add_sub_cancel_left]
      _ ≤ 58 ^ (width - leadingZeros bytes) := pow_sub_le (by omega) hwidth h
  have hchars : (encode bytes).length = leadingZeros bytes + (digits 58 bytes.toNatBE).length := by
    rw [encode, String.length_ofList, encodeChars, List.length_append, List.length_replicate, List.length_map,
      List.length_reverse]
  omega

end PairIndex.Base58
