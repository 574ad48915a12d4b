import Mathlib.Data.List.Induction

/-! Values that come in one after another and of which one is kept. Of numbered values the newest is: a value is kept if
its number is above that of the value kept so far, so of several with the highest number the first one stays
(`Numbered.isNewest_newestOf`). Two lists of them may come in in either order unless both end at one number with different
values (`Numbered.newestOf_comm_iff`). Of other values the last one is kept, on top of what was there before
(`Option.or_swap_iff`). -/

namespace PairIndex

/-- A value with its number in the order of changes. -/
structure Numbered (α : Type) where
  seqNum : Int
  value : α

namespace Numbered

variable {α : Type}

/-- The newer of two values; of two with one number, the one that was kept. -/
def newer (kept new : Numbered α) : Numbered α :=
  if kept.seqNum < new.seqNum then new else kept

/-- The value that is kept after some values came in. -/
def newestOf (kept : Numbered α) (told : List (Numbered α)) : Numbered α :=
  told.foldl newer kept

/-- The first of those values that have the highest number. -/
def IsNewest (told : List (Numbered α)) (newest : Numbered α) : Prop :=
  ∃ before after, told = before ++ newest :: after ∧ (∀ b ∈ before, b.seqNum < newest.seqNum) ∧
    ∀ b ∈ after, b.seqNum ≤ newest.seqNum

theorem newer_of_lt {kept new : Numbered α} (h : kept.seqNum < new.seqNum) : kept.newer new = new :=
  if_pos h

theorem newer_of_le {kept new : Numbered α} (h : new.seqNum ≤ kept.seqNum) : kept.newer new = kept :=
  if_neg (Int.not_lt.mpr h)

theorem seqNum_newer (kept new : Numbered α) : (kept.newer new).seqNum = max kept.seqNum new.seqNum := by
  rcases Int.lt_or_le kept.seqNum new.seqNum with hlt | hle
  · rw [newer_of_lt hlt]
    exact (Int.max_eq_right (Int.le_of_lt hlt)).symm
  · rw [newer_of_le hle]
    exact (Int.max_eq_left hle).symm

theorem newer_assoc (a b c : Numbered α) : (a.newer b).newer c = a.newer (b.newer c) := by
  rcases Int.lt_or_le b.seqNum c.seqNum with hbc | hcb
  · rw [newer_of_lt hbc]
    rcases Int.lt_or_le a.seqNum b.seqNum with hab | hba
    · rw [newer_of_lt hab, newer_of_lt hbc, newer_of_lt (Int.lt_trans hab hbc)]
    · rw [newer_of_le hba]
  · rw [newer_of_le hcb]
    rcases Int.lt_or_le a.seqNum b.seqNum with hab | hba
    · rw [newer_of_lt hab, newer_of_le hcb]
    · rw [newer_of_le hba, newer_of_le (Int.le_trans hcb hba)]

theorem newer_comm_iff {a b : Numbered α} : a.newer b = b.newer a ↔ (a.seqNum = b.seqNum → a = b) := by
  rcases Int.lt_trichotomy a.seqNum b.seqNum with hlt | heq | hgt
  · rw [newer_of_lt hlt, newer_of_le (Int.le_of_lt hlt)]
    exact iff_of_true rfl fun heq => absurd heq (Int.ne_of_lt hlt)
  · rw [newer_of_le (Int.le_of_eq heq.symm), newer_of_le (Int.le_of_eq heq)]
    exact ⟨fun h _ => h, fun h => h heq⟩
  · rw [newer_of_le (Int.le_of_lt hgt), newer_of_lt hgt]
    exact iff_of_true rfl fun heq => absurd heq.symm (Int.ne_of_lt hgt)

/-- Two values may come in in either order, unless they have one number and differ. -/
theorem newer_swap {kept a b : Numbered α} (h : a.seqNum = b.seqNum → a = b) :
    (kept.newer a).newer b = (kept.newer b).newer a := by
  rw [newer_assoc, newer_comm_iff.mpr h, ← newer_assoc]

@[simp]
theorem newestOf_nil (kept : Numbered α) : newestOf kept [] = kept := rfl

theorem newestOf_append (kept : Numbered α) (told later : List (Numbered α)) :
    newestOf kept (told ++ later) = newestOf (newestOf kept told) later :=
  List.foldl_append

theorem newestOf_concat (kept : Numbered α) (told : List (Numbered α)) (last : Numbered α) :
    newestOf kept (told ++ [last]) = (newestOf kept told).newer last :=
  newestOf_append ..

theorem le_newestOf (kept : Numbered α) (told : List (Numbered α)) : kept.seqNum ≤ (newestOf kept told).seqNum := by
  induction told generalizing kept with
  | nil => exact Int.le_refl _
  | cons b told ih =>
    have hstep : kept.seqNum ≤ (kept.newer b).seqNum := by
      rw [seqNum_newer]
      exact Int.le_max_left ..
    exact Int.le_trans hstep (ih _)

theorem le_newestOf_of_mem {kept b : Numbered α} {told : List (Numbered α)} (h : b ∈ told) :
    b.seqNum ≤ (newestOf kept told).seqNum := by
  obtain ⟨before, after, rfl⟩ := List.append_of_mem h
  have hstep : b.seqNum ≤ ((newestOf kept before).newer b).seqNum := by
    rw [seqNum_newer]
    exact Int.le_max_right ..
  rw [newestOf_append]
  exact Int.le_trans hstep (le_newestOf _ after)

/-- If all values are above the one kept so far, the first of the newest is kept. -/
theorem isNewest_newestOf {kept : Numbered α} {told : List (Numbered α)} (habove : ∀ b ∈ told, kept.seqNum < b.seqNum)
    (hne : told ≠ []) : IsNewest told (newestOf kept told) := by
  induction told using List.reverseRecOn with
  | nil => exact absurd rfl hne
  | append_singleton told last ih =>
    rw [newestOf_concat]
    by_cases hfirst : told = []
    · subst hfirst
      rw [newestOf_nil, newer_of_lt (habove last (by simp))]
      exact ⟨[], [], rfl, nofun, nofun⟩
    · obtain ⟨before, after, hsplit, hbefore, hafter⟩ := ih (fun b hb => habove b (List.mem_append_left _ hb)) hfirst
      rcases Int.lt_or_le (newestOf kept told).seqNum last.seqNum with hlt | hle
      · rw [newer_of_lt hlt]
        refine ⟨told, [], rfl, fun b hb => ?_, nofun⟩
        rw [hsplit, List.mem_append, List.mem_cons] at hb
        rcases hb with hb | rfl | hb
        · exact Int.lt_trans (hbefore b hb) hlt
        · exact hlt
        · exact Int.lt_of_le_of_lt (hafter b hb) hlt
      · rw [newer_of_le hle]
        refine ⟨before, after ++ [last], ?_, hbefore, fun b hb => ?_⟩
        · rw [← List.cons_append, ← List.append_assoc, ← hsplit]
        · rcases List.mem_append.mp hb with hb | hb
          · exact hafter b hb
          · exact List.mem_singleton.mp hb ▸ hle

/-- Values that come in on top of a newer one: only the newest of them can matter. -/
theorem newestOf_of_le {kept top : Numbered α} (h : kept.seqNum ≤ top.seqNum) (told : List (Numbered α)) :
    newestOf top told = top.newer (newestOf kept told) := by
  induction told using List.reverseRecOn with
  | nil => exact (newer_of_le h).symm
  | append_singleton told last ih => rw [newestOf_concat, newestOf_concat, ih, newer_assoc]

/-- Values that come in once more change nothing. -/
theorem newestOf_again (kept : Numbered α) (told : List (Numbered α)) :
    newestOf (newestOf kept told) told = newestOf kept told :=
  (newestOf_of_le (le_newestOf kept told) told).trans (newer_of_le (Int.le_refl _))

/-- Two lists of values may come in in either order, unless both alone end at one number with different values. -/
theorem newestOf_comm_iff (kept : Numbered α) (told told' : List (Numbered α)) :
    newestOf kept (told ++ told') = newestOf kept (told' ++ told) ↔
      ((newestOf kept told).seqNum = (newestOf kept told').seqNum → newestOf kept told = newestOf kept told') := by
  rw [newestOf_append, newestOf_append, newestOf_of_le (le_newestOf kept told) told',
    newestOf_of_le (le_newestOf kept told') told]
  exact newer_comm_iff

end Numbered

/-! ## The last value -/

variable {α β : Type}

/-- There is a last value if and only if there is one. -/
theorem isSome_getLast?_filterMap (f : α → Option β) (told : List α) :
    (told.filterMap f).getLast?.isSome ↔ ∃ a ∈ told, f a ≠ none := by
  rw [List.getLast?_isSome, ne_eq, List.filterMap_eq_nil_iff]
  simp

/-- Two values are put on top of one another in either order, each on a ground of its own. -/
theorem Option.or_swap_iff {x y : Option α} {a b : α} :
    (y.or x).or (some a) = (x.or y).or (some b) ↔
      ((x.isSome ↔ y.isSome) → x.or (some a) = y.or (some b)) := by
  cases x <;> cases y <;> simp [eq_comm]

/-- What is put on top of a ground is found again when it is put on top once more. -/
theorem Option.or_again {x ground : Option α} {a : α} (h : some a = x.or ground) : x.or (some a) = some a := by
  cases x with
  | none => rfl
  | some c => exact h.symm

/-- A row that is there only if something was told of it is the same after two lists in either order, if that holds for
lists which leave a row. -/
theorem rows_swap_iff {after : List β → Option α} (hnil : ∀ {told}, after told = none → told = [])
    {Agree : α → α → Prop} {told other : List β}
    (hrows : ∀ row row', after told = some row → after other = some row' →
      (after (told ++ other) = after (other ++ told) ↔ Agree row row')) :
    after (told ++ other) = after (other ++ told) ↔ ∀ row ∈ after told, ∀ row' ∈ after other, Agree row row' := by
  cases hrow : after told with
  | none =>
    rw [hnil hrow, List.nil_append, List.append_nil]
    exact iff_of_true rfl fun row hrow => absurd hrow (Option.not_mem_none row)
  | some row =>
    cases hrow' : after other with
    | none =>
      rw [hnil hrow', List.nil_append, List.append_nil]
      exact iff_of_true rfl fun _ _ row' hrow' => absurd hrow' (Option.not_mem_none row')
    | some row' =>
      simp only [Option.mem_some, forall_eq']
      exact hrows row row' hrow hrow'

end PairIndex
