import PairIndex.Store.Table

/-! What a table holds. A table is told by its look-ups: they fix its rows up to their order (`same_iff_find?`), and a
new row fills the place of its key only if that was free (`find?_insertIfAny`). -/

namespace PairIndex.Table

variable {κ α : Type} {key : α → κ}

/-- Two tables with the same rows, in whatever order these were added. -/
def Same (t u : Table key) : Prop :=
  t.rows.Perm u.rows

theorem nodup_rows (t : Table key) : t.rows.Nodup :=
  List.Pairwise.of_map key (fun _ _ hne he => hne (congrArg key he)) t.nodup

variable [DecidableEq κ]

theorem find?_eq_some_iff {t : Table key} {k : κ} {row : α} :
    t.find? k = some row ↔ row ∈ t.rows ∧ key row = k := by
  constructor
  · intro h
    exact ⟨mem_of_find? h, key_of_find? h⟩
  · rintro ⟨hmem, rfl⟩
    obtain ⟨rows, nodup⟩ := t
    simp only [find?] at hmem ⊢
    induction rows with
    | nil => cases hmem
    | cons first rest ih =>
      obtain ⟨hfirst, hrest⟩ := List.nodup_cons.mp nodup
      rcases List.mem_cons.mp hmem with rfl | h
      · simp
      · have hne : ¬key first = key row := fun he => hfirst (he ▸ List.mem_map_of_mem h)
        rw [List.find?_cons]
        simpa only [hne, decide_false] using ih hrest h

theorem mem_rows_iff {t : Table key} {row : α} : row ∈ t.rows ↔ t.find? (key row) = some row := by
  simp [find?_eq_some_iff]

/-- Tables are the same if and only if all look-ups agree. -/
theorem same_iff_find? {t u : Table key} : t.Same u ↔ ∀ k, t.find? k = u.find? k := by
  unfold Same
  rw [List.perm_ext_iff_of_nodup t.nodup_rows u.nodup_rows]
  constructor
  · intro h k
    apply Option.ext
    intro row
    simp only [find?_eq_some_iff, h row]
  · intro h row
    rw [mem_rows_iff, mem_rows_iff, h]

/-- Two tables do not contradict one another: where both have a row of a key, it is the same row. -/
def Agrees (t u : Table key) : Prop :=
  ∀ k, ∀ row ∈ t.find? k, ∀ row' ∈ u.find? k, row = row'

theorem any_find?_insertNew (t : Table key) (row : α) (p : α → Bool) :
    ((t.insertNew row).1.find? (key row)).any p = p ((t.find? (key row)).getD row) := by
  rw [find?_insertNew, if_pos rfl, Option.any_some]

theorem mem_rows_insertNew {t : Table key} {row old : α} (h : old ∈ (t.insertNew row).1.rows) :
    old = row ∨ old ∈ t.rows := by
  unfold insertNew at h
  split at h
  · exact List.mem_cons.mp h
  · exact Or.inr h

theorem mem_rows_update {t : Table key} {k : κ} {change : α → α} (keeps : ∀ row, key (change row) = key row) {row : α}
    (h : row ∈ (t.update k change keeps).rows) : ∃ old ∈ t.rows, row = if key old = k then change old else old := by
  obtain ⟨old, hold, heq⟩ := List.mem_map.mp h
  exact ⟨old, hold, heq.symm⟩

/-- Adds a row, if there is one to add, unless its key is taken. -/
def insertIfAny (t : Table key) : Option α → Table key
  | none => t
  | some row => (t.insertNew row).1

/-- The row that is to be added, if it is one of the given key. -/
def ofKey (key : α → κ) (k : κ) : Option α → Option α
  | none => none
  | some row => if key row = k then some row else none

theorem find?_insertIfAny (t : Table key) (row? : Option α) (k : κ) :
    (t.insertIfAny row?).find? k = (t.find? k).or (ofKey key k row?) := by
  cases row? with
  | none => simp [insertIfAny, ofKey]
  | some row =>
    rw [insertIfAny, find?_insertNew]
    cases t.find? k <;> by_cases hk : key row = k <;> simp [ofKey, hk]

theorem ofKey_eq_some_iff {k : κ} {row? : Option α} {row : α} :
    ofKey key k row? = some row ↔ row? = some row ∧ key row = k := by
  cases row? with
  | none => simp [ofKey]
  | some new =>
    by_cases hk : key new = k
    · simp only [ofKey, hk, if_true, Option.some.injEq]
      exact ⟨fun h => ⟨h, h ▸ hk⟩, fun h => h.1⟩
    · simp only [ofKey, hk, if_false, Option.some.injEq, false_iff, reduceCtorEq]
      rintro ⟨rfl, h⟩
      exact hk h

theorem isSome_ofKey (key : α → κ) (k : κ) (row? : Option α) :
    (ofKey key k row?).isSome = decide (row?.map key = some k) := by
  cases row? with
  | none => rfl
  | some row => by_cases hk : key row = k <;> simp [ofKey, hk]

/-- Rows that are to be added together and share their key are rows of a key together. -/
theorem rel_ofKey {β : Type} {key' : β → κ} {r : α → β → Prop} (hkey : ∀ a b, r a b → key' b = key a) {a? : Option α}
    {b? : Option β} (h : Option.Rel r a? b?) (k : κ) : Option.Rel r (ofKey key k a?) (ofKey key' k b?) := by
  cases h with
  | none => exact .none
  | @some a b hr =>
    rw [ofKey, ofKey, hkey a b hr]
    by_cases hk : key a = k
    · rw [if_pos hk, if_pos hk]
      exact .some hr
    · rw [if_neg hk, if_neg hk]
      exact .none

/-- A change of one row that keeps its key, and the row that is changed if there is none yet. -/
structure Upsert {κ α : Type} (key : α → κ) where
  fresh : α
  change : α → α
  keeps : ∀ row, key (change row) = key row

/-- Makes a change, if there is one to make. -/
def upsertIfAny (t : Table key) : Option (Upsert key) → Table key
  | none => t
  | some u => (t.insertNew u.fresh).1.update (key u.fresh) u.change u.keeps

/-- What a change, if there is one, makes of the row of a key. -/
def Upsert.at (k : κ) : Option (Upsert key) → Option α → Option α
  | none, old => old
  | some u, old => if key u.fresh = k then some (u.change (old.getD u.fresh)) else old

theorem find?_upsertIfAny (t : Table key) (u? : Option (Upsert key)) (k : κ) :
    (t.upsertIfAny u?).find? k = Upsert.at k u? (t.find? k) := by
  cases u? with
  | none => rfl
  | some u =>
    rw [upsertIfAny, find?_update, find?_insertNew, Upsert.at]
    by_cases hk : key u.fresh = k <;> simp [hk]

/-! ## Tables that have what is to be written -/

/-- The key of the row that is to be added, if there is one, is taken. -/
def Holds (t : Table key) (row? : Option α) : Prop :=
  ∀ row ∈ row?, (t.find? (key row)).isSome

theorem holds_insertIfAny_self (t : Table key) (row? : Option α) : (t.insertIfAny row?).Holds row? := by
  intro row hrow
  rw [find?_insertIfAny, Option.isSome_or, ofKey_eq_some_iff.mpr ⟨hrow, rfl⟩, Option.isSome_some, Bool.or_true]

theorem Holds.insertIfAny {t : Table key} {row? : Option α} (h : t.Holds row?) (other? : Option α) :
    (t.insertIfAny other?).Holds row? := by
  intro row hrow
  rw [find?_insertIfAny, Option.isSome_or, h row hrow, Bool.true_or]

theorem Holds.insertIfAny_eq {t : Table key} {row? : Option α} (h : t.Holds row?) : t.insertIfAny row? = t := by
  cases row? with
  | none => rfl
  | some row =>
    have htaken : ¬t.find? (key row) = none := Option.ne_none_iff_isSome.mpr (h row rfl)
    rw [Table.insertIfAny, insertNew, dif_neg htaken]

theorem update_of_fixed {t : Table key} {k : κ} {row : α} {change : α → α}
    (keeps : ∀ row, key (change row) = key row) (hfind : t.find? k = some row) (hfixed : change row = row) :
    t.update k change keeps = t := by
  apply ext_rows
  have hsame : ∀ old ∈ t.rows, (if key old = k then change old else old) = old := by
    intro old hold
    by_cases hk : key old = k
    · have heq : t.find? k = some old := find?_eq_some_iff.mpr ⟨hold, hk⟩
      rw [hfind, Option.some.injEq] at heq
      rw [if_pos hk, ← heq, hfixed]
    · exact if_neg hk
  exact (List.map_congr_left hsame).trans (List.map_id' t.rows)

theorem upsertIfAny_of_fixed {t : Table key} {u? : Option (Upsert key)}
    (h : ∀ u ∈ u?, ∃ row, t.find? (key u.fresh) = some row ∧ u.change row = row) : t.upsertIfAny u? = t := by
  cases u? with
  | none => rfl
  | some u =>
    obtain ⟨row, hfind, hfixed⟩ := h u rfl
    have hholds : t.Holds (some u.fresh) := by
      intro fresh hfresh
      cases hfresh
      rw [hfind]
      rfl
    have hkept : (t.insertNew u.fresh).1 = t := hholds.insertIfAny_eq
    rw [upsertIfAny, hkept, update_of_fixed u.keeps hfind hfixed]

/-! ## Keys -/

/-- The keys of a table, that of the newest row first. -/
def keys (t : Table key) : List κ :=
  t.rows.map key

theorem keys_update (t : Table key) (k : κ) (change : α → α) (keeps : ∀ row, key (change row) = key row) :
    (t.update k change keeps).keys = t.keys := by
  rw [keys, update, List.map_map, keys]
  refine List.map_congr_left fun row _ => ?_
  by_cases hk : key row = k <;> simp [hk, keeps]

theorem isSome_find?_iff {t : Table key} {k : κ} : (t.find? k).isSome ↔ k ∈ t.keys := by
  rw [← Option.ne_none_iff_isSome, ne_eq, find?_eq_none_iff, Decidable.not_not, keys]

/-- A table is told by its keys in their order and by its look-ups. -/
theorem eq_of_keys {t u : Table key} (hkeys : t.keys = u.keys) (hfind : ∀ k, t.find? k = u.find? k) : t = u := by
  have hrows : ∀ v : Table key, v.rows.map some = v.keys.map v.find? := by
    intro v
    rw [keys, List.map_map]
    exact List.map_congr_left fun row hrow => (mem_rows_iff.mp hrow).symm
  have hsame : t.rows.map some = u.rows.map some := by
    rw [hrows, hrows, hkeys]
    exact List.map_congr_left fun k _ => hfind k
  exact ext_rows ((List.map_inj_right fun _ _ => Option.some.inj).mp hsame)

/-- A change of a row that is there leaves the keys alone. -/
theorem keys_upsertIfAny {t : Table key} {u? : Option (Upsert key)} (h : ∀ u ∈ u?, key u.fresh ∈ t.keys) :
    (t.upsertIfAny u?).keys = t.keys := by
  cases u? with
  | none => rfl
  | some u =>
    have hholds : t.Holds (some u.fresh) := by
      intro fresh hfresh
      cases hfresh
      exact isSome_find?_iff.mpr (h u rfl)
    have hkept : (t.insertNew u.fresh).1 = t := hholds.insertIfAny_eq
    rw [upsertIfAny, keys_update, hkept]

/-- The keys that a table has after a change are those before and that of the row that is changed. -/
theorem mem_keys_upsertIfAny {t : Table key} {u? : Option (Upsert key)} {k : κ} :
    k ∈ (t.upsertIfAny u?).keys ↔ k ∈ t.keys ∨ ∃ u ∈ u?, key u.fresh = k := by
  rw [← isSome_find?_iff, ← isSome_find?_iff, find?_upsertIfAny]
  cases u? with
  | none => simp [Upsert.at]
  | some u => by_cases hk : key u.fresh = k <;> simp [Upsert.at, hk]

end PairIndex.Table
