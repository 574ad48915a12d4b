import Mathlib.Algebra.Order.Field.Rat
import Mathlib.Tactic.FieldSimp
import Mathlib.Tactic.Linarith
import Mathlib.Tactic.NormNum
import Mathlib.Tactic.Ring
import PairIndex.Ledger.RateLimit
import PairIndex.Settings.Environment

/-! Token buckets in exact arithmetic. A call is a sequence of looks at the bucket, and callers that share a bucket look
at it in turn, so that what holds of every sequence of looks holds however calls are interleaved. A call returns if there
is room for one token, after one wait at most, and otherwise never (`TokenBucket.letsThrough_iff`). The tokens stay
between none and the capacity, and no window of time sees more calls return than the capacity and what is refilled in
the window allow (`TokenBucket.rate_respected`). -/

namespace PairIndex.TokenBucket

variable {K : Type} [Field K] [LinearOrder K] {b : TokenBucket K} {r amount now : K}

/-! ## Looks -/

/-- One look at a bucket: it is refilled, and an amount is taken out if there is as much. -/
def look (amount now : K) (b : TokenBucket K) : Bool × TokenBucket K :=
  let b := b.refill now
  if amount ≤ b.tokens then (true, { b with tokens := b.tokens - amount }) else (false, b)

theorem tokens_refill (b : TokenBucket K) (now : K) :
    (b.refill now).tokens = min (b.tokens + (now - b.lastRefill) * b.rate) b.capacity := by
  rw [refill, min_def_lt]

theorem look_of_le (h : amount ≤ (b.refill now).tokens) :
    b.look amount now = (true, { b.refill now with tokens := (b.refill now).tokens - amount }) :=
  if_pos h

theorem look_of_lt (h : (b.refill now).tokens < amount) : b.look amount now = (false, b.refill now) :=
  if_neg h.not_ge

theorem lastRefill_look (amount now : K) (b : TokenBucket K) : (b.look amount now).2.lastRefill = now := by
  rw [look]
  split <;> rfl

/-- What is taken is no longer there. -/
theorem tokens_look (amount now : K) (b : TokenBucket K) :
    (b.look amount now).2.tokens = (b.refill now).tokens - if (b.look amount now).1 then amount else 0 := by
  rcases le_or_gt amount (b.refill now).tokens with h | h
  · rw [look_of_le h]
    rfl
  · rw [look_of_lt h]
    exact (sub_zero _).symm

/-! ## Calls -/

/-- An attempt to take tokens on a clock of its own: each wait lasts longer than was asked for, by the next of the given
times. It gives up when these are used up. -/
def takeLate (amount : K) (late : List K) (now : K) (b : TokenBucket K) : Take K :=
  match b.look amount now, late with
  | (true, b), _ => ⟨.taken, b, now, []⟩
  | (false, b), [] => ⟨.outOfPatience, b, now, []⟩
  | (false, b), delay :: late =>
    let wait := b.waitFor amount
    let later := takeLate amount late (now + wait + delay) b
    { later with waits := wait :: later.waits }

theorem takeLate_of_le (h : amount ≤ (b.refill now).tokens) (late : List K) :
    takeLate amount late now b = ⟨.taken, { b.refill now with tokens := (b.refill now).tokens - amount }, now, []⟩ := by
  rw [takeLate.eq_def, look_of_le h]

theorem takeLate_nil_of_lt (h : (b.refill now).tokens < amount) :
    takeLate amount [] now b = ⟨.outOfPatience, b.refill now, now, []⟩ := by
  rw [takeLate.eq_def, look_of_lt h]

theorem takeLate_cons_of_lt (h : (b.refill now).tokens < amount) (delay : K) (late : List K) :
    takeLate amount (delay :: late) now b =
      let wait := (b.refill now).waitFor amount
      let later := takeLate amount late (now + wait + delay) (b.refill now)
      { later with waits := wait :: later.waits } := by
  rw [takeLate.eq_def, look_of_lt h]

/-- Taking tokens is taking them on a clock on which no wait lasts longer than was asked for. -/
theorem take_eq_takeLate (h : b.rate ≠ 0) (patience : Nat) (now : K) :
    take amount patience now b = takeLate amount (List.replicate patience 0) now b := by
  have hrate : ((b.refill now).rate == 0) = false := beq_false_of_ne h
  induction patience generalizing now b with
  | zero =>
    rw [take.eq_def]
    rcases le_or_gt amount (b.refill now).tokens with hle | hlt
    · rw [takeLate_of_le hle]
      exact if_pos hle
    · rw [List.replicate_zero, takeLate_nil_of_lt hlt]
      simp only [if_neg hlt.not_ge, hrate, Bool.false_eq_true, if_false]
  | succ patience ih =>
    rw [take.eq_def]
    rcases le_or_gt amount (b.refill now).tokens with hle | hlt
    · rw [takeLate_of_le hle]
      exact if_pos hle
    · have hlater := ih (b := b.refill now) h (now + (b.refill now).waitFor amount) (beq_false_of_ne h)
      rw [List.replicate_succ, takeLate_cons_of_lt hlt]
      simp only [if_neg hlt.not_ge, hrate, Bool.false_eq_true, if_false, add_zero, hlater]

/-- More than there is room for is never taken. -/
theorem outOfPatience_of_capacity_lt (h : b.capacity < amount) (late : List K) (now : K) :
    (takeLate amount late now b).ending = .outOfPatience := by
  induction late generalizing now b with
  | nil =>
    have hshort : (b.refill now).tokens < amount := (tokens_refill b now).trans_le (min_le_right _ _) |>.trans_lt h
    rw [takeLate_nil_of_lt hshort]
  | cons delay late ih =>
    have hshort : (b.refill now).tokens < amount := (tokens_refill b now).trans_le (min_le_right _ _) |>.trans_lt h
    rw [takeLate_cons_of_lt hshort]
    exact ih (b := b.refill now) h _

/-! ## Buckets in use -/

/-- A bucket for `r` calls a second in the hands of callers: the time, its state, and when calls have returned. A caller
may look at any time, so the looks of one call may fall between those of others. -/
inductive InUse (r start : K) : K → TokenBucket K → List K → Prop
  | made : InUse r start start (full r start) []
  | looked {now later : K} {b : TokenBucket K} {returned : List K} (h : InUse r start now b returned)
      (hlater : now ≤ later) :
      InUse r start later (b.look 1 later).2 (if (b.look 1 later).1 then returned ++ [later] else returned)

variable {start later : K} {returned : List K}

theorem InUse.after_look {taken : Bool} {b' : TokenBucket K} (h : InUse r start now b returned) (hlater : now ≤ later)
    (hlook : b.look 1 later = (taken, b')) :
    InUse r start later b' (if taken then returned ++ [later] else returned) := by
  have hlooked := h.looked hlater
  rwa [hlook] at hlooked

theorem InUse.lastRefill_eq (h : InUse r start now b returned) : b.lastRefill = now := by
  cases h with
  | made => rfl
  | looked h hlater => exact lastRefill_look _ _ _

/-- A bucket for some calls a second, neither overdrawn nor overfull. -/
structure Level (r : K) (b : TokenBucket K) : Prop where
  capacity : b.capacity = r
  rate : b.rate = r
  nonneg : 0 ≤ b.tokens
  le : b.tokens ≤ r

theorem level_full (hr : 0 < r) (start : K) : Level r (full r start) :=
  ⟨rfl, rfl, hr.le, le_refl r⟩

theorem Level.tokens_refill_eq (h : Level r b) (now : K) :
    (b.refill now).tokens = min (b.tokens + (now - b.lastRefill) * r) r := by
  rw [tokens_refill, h.capacity, h.rate]

variable [IsStrictOrderedRing K]

namespace Level

variable (h : Level r b) (hr : 0 < r)
include h hr

theorem refill (hlater : b.lastRefill ≤ now) : Level r (b.refill now) := by
  have hgain : 0 ≤ (now - b.lastRefill) * r := mul_nonneg (sub_nonneg.mpr hlater) hr.le
  refine ⟨h.capacity, h.rate, ?_, ?_⟩
  · rw [h.tokens_refill_eq]
    exact le_min (add_nonneg h.nonneg hgain) hr.le
  · rw [h.tokens_refill_eq]
    exact min_le_right _ _

theorem look (hamount : 0 ≤ amount) (hlater : b.lastRefill ≤ now) : Level r (b.look amount now).2 := by
  have hrefill := h.refill hr hlater
  rcases le_or_gt amount (b.refill now).tokens with hle | hlt
  · rw [look_of_le hle]
    exact ⟨hrefill.capacity, hrefill.rate, sub_nonneg.mpr hle, (sub_le_self _ hamount).trans hrefill.le⟩
  · rw [look_of_lt hlt]
    exact hrefill

/-- The first wait is long enough, unless more is asked for than there is room for. -/
theorem taken_after_wait (hroom : amount ≤ r) {delay : K} (hdelay : 0 ≤ delay) (late : List K) (now : K) :
    (takeLate amount (delay :: late) now b).ending = .taken := by
  rcases le_or_gt amount (b.refill now).tokens with hle | hlt
  · rw [takeLate_of_le hle]
  · have hrate : (b.refill now).rate = r := h.rate
    have hcapacity : (b.refill now).capacity = r := h.capacity
    have hlast : (b.refill now).lastRefill = now := rfl
    have hgain : (now + (b.refill now).waitFor amount + delay - now) * r =
        amount - (b.refill now).tokens + delay * r := by
      rw [waitFor, hrate]
      field_simp
      ring
    have hextra : 0 ≤ delay * r := mul_nonneg hdelay hr.le
    have henough : amount ≤ ((b.refill now).refill (now + (b.refill now).waitFor amount + delay)).tokens := by
      rw [tokens_refill, hrate, hcapacity, hlast, hgain]
      exact le_min (by linarith) hroom
    rw [takeLate_cons_of_lt hlt]
    exact congrArg Take.ending (takeLate_of_le henough late)

end Level

namespace InUse

variable (hr : 0 < r) (h : InUse r start now b returned)
include hr h

theorem level : Level r b := by
  induction h with
  | made => exact level_full hr start
  | looked h hlater ih => exact ih.look hr zero_le_one (h.lastRefill_eq.trans_le hlater)

/-- A whole call is a sequence of looks, whatever the clock. -/
theorem takeLate {late : List K} (hlate : ∀ delay ∈ late, 0 ≤ delay) (hlater : now ≤ later) :
    let call := TokenBucket.takeLate 1 late later b
    InUse r start call.now call.bucket (if call.ending = .taken then returned ++ [call.now] else returned) := by
  induction late generalizing now b later with
  | nil =>
    rcases le_or_gt 1 (b.refill later).tokens with hle | hlt
    · rw [takeLate_of_le hle]
      exact h.after_look hlater (look_of_le hle)
    · rw [takeLate_nil_of_lt hlt]
      exact h.after_look hlater (look_of_lt hlt)
  | cons delay late ih =>
    rcases le_or_gt 1 (b.refill later).tokens with hle | hlt
    · rw [takeLate_of_le hle]
      exact h.after_look hlater (look_of_le hle)
    · have hlooked := h.after_look hlater (look_of_lt hlt)
      have hrate : (b.refill later).rate = r := (hlooked.level hr).rate
      have hwait : 0 ≤ (b.refill later).waitFor 1 := by
        rw [waitFor, hrate]
        exact div_nonneg (sub_nonneg.mpr hlt.le) hr.le
      have hdelay : 0 ≤ delay := hlate delay List.mem_cons_self
      rw [takeLate_cons_of_lt hlt]
      exact ih hlooked (fun d hd => hlate d (List.mem_cons_of_mem delay hd)) (by linarith)

theorem take (patience : Nat) (hlater : now ≤ later) :
    let call := TokenBucket.take 1 patience later b
    InUse r start call.now call.bucket (if call.ending = .taken then returned ++ [call.now] else returned) := by
  have hrate : b.rate ≠ 0 := (h.level hr).rate.trans_ne hr.ne'
  rw [take_eq_takeLate hrate]
  exact h.takeLate hr (fun _ hdelay => (List.eq_of_mem_replicate hdelay).ge) hlater

end InUse

/-! ## Letting calls through -/

/-- A call that begins at a time returns, however much longer than asked for its waits last. -/
def LetsThrough (b : TokenBucket K) (now : K) : Prop :=
  ∀ late : Nat → K, (∀ i, 0 ≤ late i) → ∃ waits, (takeLate 1 ((List.range waits).map late) now b).ending = .taken

theorem Level.letsThrough (h : Level r b) (hr : 0 < r) (hroom : 1 ≤ r) (now : K) : b.LetsThrough now :=
  fun _ hlate => ⟨1, h.taken_after_wait hr hroom (hlate 0) [] now⟩

omit [IsStrictOrderedRing K] in
theorem not_letsThrough (h : b.capacity < 1) (now : K) : ¬b.LetsThrough now := by
  intro hthrough
  obtain ⟨waits, htaken⟩ := hthrough (fun _ => 0) fun _ => le_refl 0
  rw [outOfPatience_of_capacity_lt h] at htaken
  cases htaken

/-- A bucket in use lets every call through if there is room for one token, and none otherwise. -/
theorem letsThrough_iff (hr : 0 < r) (h : InUse r start now b returned) (later : K) :
    (b.LetsThrough later ↔ 1 ≤ r) ∧ ((∃ patience, (b.take 1 patience later).ending = .taken) ↔ 1 ≤ r) := by
  have hlevel := h.level hr
  have hrate : b.rate ≠ 0 := hlevel.rate.trans_ne hr.ne'
  rcases le_or_gt 1 r with hroom | hshort
  · have htaken : (b.take 1 1 later).ending = .taken := by
      rw [take_eq_takeLate hrate]
      exact hlevel.taken_after_wait hr hroom (le_refl 0) [] later
    exact ⟨iff_of_true (hlevel.letsThrough hr hroom later) hroom, iff_of_true ⟨1, htaken⟩ hroom⟩
  · have hcapacity : b.capacity < 1 := hlevel.capacity.trans_lt hshort
    have hnever : ¬∃ patience, (b.take 1 patience later).ending = .taken := by
      rintro ⟨patience, htaken⟩
      rw [take_eq_takeLate hrate, outOfPatience_of_capacity_lt hcapacity] at htaken
      cases htaken
    exact ⟨iff_of_false (not_letsThrough hcapacity later) hshort.not_ge, iff_of_false hnever hshort.not_ge⟩

/-- Three calls of a bucket for two calls a second: two return at once, and the third after half a second. -/
theorem inUse_burst : InUse (2 : ℚ) 0 (1 / 2) ⟨2, 2, 0, 1 / 2⟩ [0, 0, 1 / 2] := by
  have hfull : InUse (2 : ℚ) 0 0 ⟨2, 2, 2, 0⟩ [] := .made
  have hfirst := hfull.after_look (le_refl 0) (show _ = (true, ⟨2, 2, 1, 0⟩) by decide +kernel)
  have hsecond := hfirst.after_look (le_refl 0) (show _ = (true, ⟨2, 2, 0, 0⟩) by decide +kernel)
  have hshort := hsecond.after_look (le_refl 0) (show _ = (false, ⟨2, 2, 0, 0⟩) by decide +kernel)
  exact hshort.after_look (by norm_num) (show _ = (true, ⟨2, 2, 0, 1 / 2⟩) by decide +kernel)

/-- A call after a burst returns. -/
theorem letsThrough_iff_burst :
    (0 : ℚ) < 2 ∧ InUse (2 : ℚ) 0 (1 / 2) ⟨2, 2, 0, 1 / 2⟩ [0, 0, 1 / 2] ∧
      LetsThrough (⟨2, 2, 0, 1 / 2⟩ : TokenBucket ℚ) (1 / 2) :=
  ⟨by norm_num, inUse_burst, (letsThrough_iff (by norm_num) inUse_burst (1 / 2)).1.mpr (by norm_num)⟩

/-- A limit of one call in two seconds is accepted as a setting, and lets nothing through. -/
theorem slow_limit_lets_nothing_through :
    ((Field.number ⟨true, 1000⟩ "0.5").toOption.bind Double.toRat?) = some (1 / 2) ∧
      ¬∀ r start : ℚ, 0 < r → r ≤ 1000 → ∀ now b returned, InUse r start now b returned →
        ∀ later, now ≤ later → LetsThrough b later := by
  refine ⟨by decide +kernel, fun hall => ?_⟩
  have hthrough := hall (1 / 2) 0 (by norm_num) (by norm_num) 0 _ _ .made 0 (le_refl 0)
  exact not_letsThrough (show (1 / 2 : ℚ) < 1 by norm_num) 0 hthrough

/-! ## Keeping to the limit -/

/-- How many calls returned in a window of time, its ends included. -/
def returnedIn (low high : K) (returned : List K) : Nat :=
  returned.countP fun t => low ≤ t ∧ t ≤ high

omit [IsStrictOrderedRing K] in
theorem returnedIn_of_mem {low high : K} (taken : Bool) (hlow : low ≤ later) (hhigh : later ≤ high) :
    (returnedIn low high (if taken then returned ++ [later] else returned) : K) =
      returnedIn low high returned + if taken then 1 else 0 := by
  cases taken with
  | false => simp
  | true => simp [returnedIn, hlow, hhigh]

omit [Field K] [IsStrictOrderedRing K] in
theorem returnedIn_of_not_mem {low high : K} (taken : Bool) (h : later < low ∨ high < later) :
    returnedIn low high (if taken then returned ++ [later] else returned) = returnedIn low high returned := by
  have hout : low ≤ later → high < later := fun hlow => h.resolve_left hlow.not_gt
  cases taken with
  | false => rfl
  | true => simpa [returnedIn] using hout

/-- What a window has seen: nothing before it begins; inside it, what was there to take at its beginning or refilled
since pays for the calls that returned and for the tokens that are left; and no more after it. -/
structure Paid (r low high now : K) (b : TokenBucket K) (returned : List K) : Prop where
  before : now < low → returnedIn low high returned = 0
  inside : low ≤ now → now ≤ high → returnedIn low high returned + b.tokens ≤ r + r * (now - low)
  after : high < now → (returnedIn low high returned : K) ≤ r + r * (high - low)

theorem Paid.bound {low high : K} (h : Paid r low high now b returned) (hr : 0 < r) (hwindow : low ≤ high)
    (hnonneg : 0 ≤ b.tokens) : (returnedIn low high returned : K) ≤ r + r * (high - low) := by
  have hgain : 0 ≤ r * (high - low) := mul_nonneg hr.le (sub_nonneg.mpr hwindow)
  rcases lt_or_ge now low with hbefore | hlow
  · rw [h.before hbefore, Nat.cast_zero]
    exact add_nonneg hr.le hgain
  · rcases lt_or_ge high now with hafter | hhigh
    · exact h.after hafter
    · have hmono : r * (now - low) ≤ r * (high - low) := by gcongr
      linarith [h.inside hlow hhigh]

/-- A look pays for its call with the token that it takes, and what it refills is what the time since the last look
allows. -/
theorem Paid.look {low high : K} (h : Paid r low high now b returned) (hr : 0 < r) (hwindow : low ≤ high)
    (hlevel : Level r b) (hlast : b.lastRefill = now) (hlater : now ≤ later) :
    Paid r low high later (b.look 1 later).2 (if (b.look 1 later).1 then returned ++ [later] else returned) := by
  have htokens := tokens_look 1 later b
  have hfilled := hlevel.tokens_refill_eq later
  rw [hlast] at hfilled
  refine ⟨fun hbefore => ?_, fun hlow hhigh => ?_, fun hafter => ?_⟩
  · rw [returnedIn_of_not_mem _ (.inl hbefore)]
    exact h.before (hlater.trans_lt hbefore)
  · rw [returnedIn_of_mem _ hlow hhigh, htokens]
    rcases lt_or_ge now low with hbefore | hinside
    · have hcount := h.before hbefore
      have hfull : (b.refill later).tokens ≤ r := hfilled.trans_le (min_le_right _ _)
      have hgain : 0 ≤ r * (later - low) := mul_nonneg hr.le (sub_nonneg.mpr hlow)
      rw [hcount, Nat.cast_zero]
      linarith
    · have hpaid := h.inside hinside (hlater.trans hhigh)
      have hrefilled : (b.refill later).tokens ≤ b.tokens + (later - now) * r := hfilled.trans_le (min_le_left _ _)
      linarith
  · rw [returnedIn_of_not_mem _ (.inr hafter)]
    exact h.bound hr hwindow hlevel.nonneg

theorem InUse.paid (hr : 0 < r) {low high : K} (hwindow : low ≤ high) (h : InUse r start now b returned) :
    Paid r low high now b returned := by
  induction h with
  | made =>
    have hnone : (returnedIn low high [] : K) = 0 := Nat.cast_zero
    refine ⟨fun _ => rfl, fun hlow _ => ?_, fun _ => ?_⟩
    · have hfull : (full r start).tokens = r := rfl
      have hgain : 0 ≤ r * (start - low) := mul_nonneg hr.le (sub_nonneg.mpr hlow)
      rw [hnone, hfull]
      linarith
    · have hgain : 0 ≤ r * (high - low) := mul_nonneg hr.le (sub_nonneg.mpr hwindow)
      rw [hnone]
      linarith
  | looked h hlater ih => exact ih.look hr hwindow (h.level hr) h.lastRefill_eq hlater

/-- A bucket in use never holds less than nothing nor more than it has room for, also in the middle of a look. In a
window of time no more calls return than there are tokens in a full bucket and refilled in the window. A call leaves the
bucket in use, so this holds after any calls, one after another or interleaved. -/
theorem rate_respected (hr : 0 < r) (h : InUse r start now b returned) :
    (0 ≤ b.tokens ∧ b.tokens ≤ r) ∧
      (∀ low high, low ≤ high → (returnedIn low high returned : K) ≤ r + r * (high - low)) ∧
      ∀ later, now ≤ later → (0 ≤ (b.refill later).tokens ∧ (b.refill later).tokens ≤ r) ∧
        ∀ patience, let call := b.take 1 patience later
          InUse r start call.now call.bucket (if call.ending = .taken then returned ++ [call.now] else returned) := by
  have hlevel := h.level hr
  refine ⟨⟨hlevel.nonneg, hlevel.le⟩, fun low high hwindow => ?_, fun later hlater => ⟨?_, fun patience => ?_⟩⟩
  · exact (h.paid hr hwindow).bound hr hwindow hlevel.nonneg
  · have hrefilled := hlevel.refill hr (h.lastRefill_eq.trans_le hlater)
    exact ⟨hrefilled.nonneg, hrefilled.le⟩
  · exact h.take hr patience hlater

/-- The window of a burst has as many calls return in it as may. -/
theorem rate_respected_burst :
    (0 : ℚ) < 2 ∧ InUse (2 : ℚ) 0 (1 / 2) ⟨2, 2, 0, 1 / 2⟩ [0, 0, 1 / 2] ∧
      (returnedIn (0 : ℚ) (1 / 2) [0, 0, 1 / 2] : ℚ) ≤ 2 + 2 * (1 / 2 - 0) ∧
      (returnedIn (0 : ℚ) (1 / 2) [0, 0, 1 / 2] : ℚ) = 2 + 2 * (1 / 2 - 0) :=
  ⟨by norm_num, inUse_burst, (rate_respected (by norm_num) inUse_burst).2.1 0 (1 / 2) (by norm_num),
    by norm_num [returnedIn]⟩

end PairIndex.TokenBucket
