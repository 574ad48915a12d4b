/-! Tables with a natural key. Rows are kept with the newest first and no two rows share a key; a row is added only if its
key is free, and an update keeps the keys. What a table holds is told by `find?`. -/

namespace PairIndex

/-- Rows with distinct keys, the newest first. -/
structure Table {κ α : Type} (key : α → κ) where
  rows : List α
  nodup : (rows.map key).Nodup

namespace Table

variable {κ α : Type} {key : α → κ}

def empty : Table key :=
  ⟨[], List.nodup_nil⟩

instance : Inhabited (Table key) :=
  ⟨empty⟩

theorem ext_rows {t u : Table key} (h : t.rows = u.rows) : t = u := by
  cases t
  cases u
  cases h
  rfl

def size (t : Table key) : Nat :=
  t.rows.length

variable [DecidableEq κ]

def find? (t : Table key) (k : κ) : Option α :=
  t.rows.find? fun row => decide (key row = k)

theorem find?_eq_none_iff {t : Table key} {k : κ} : t.find? k = none ↔ k ∉ t.rows.map key := by
  simp [find?]

theorem key_of_find? {t : Table key} {k : κ} {row : α} (h : t.find? k = some row) : key row = k := by
  simpa using List.find?_some h

theorem mem_of_find? {t : Table key} {k : κ} {row : α} (h : t.find? k = some row) : row ∈ t.rows :=
  List.mem_of_find?_eq_some h

/-- Adds a row if its key is free, and tells whether it did. -/
def insertNew (t : Table key) (row : α) : Table key × Bool :=
  if h : t.find? (key row) = none then
    (⟨row :: t.rows, List.nodup_cons.mpr ⟨find?_eq_none_iff.mp h, t.nodup⟩⟩, true)
  else (t, false)

/-- Changes the row of a key, if there is one, without changing its key. -/
def update (t : Table key) (k : κ) (change : α → α) (keeps : ∀ row, key (change row) = key row) : Table key where
  rows := t.rows.map fun row => if key row = k then change row else row
  nodup := by
    have same : (t.rows.map fun row => if key row = k then change row else row).map key = t.rows.map key := by
      simp only [List.map_map]
      apply List.map_congr_left
      intro row _
      by_cases h : key row = k <;> simp [h, keeps]
    rw [same]
    exact t.nodup

@[simp]
theorem find?_empty (k : κ) : (empty : Table key).find? k = none := rfl

theorem find?_insertNew (t : Table key) (row : α) (k : κ) :
    (t.insertNew row).1.find? k = if key row = k then some ((t.find? k).getD row) else t.find? k := by
  unfold insertNew
  by_cases h : t.find? (key row) = none
  · rw [dif_pos h]
    by_cases hk : key row = k
    · subst hk
      rw [h]
      simp [find?]
    · simp [find?, hk]
  · rw [dif_neg h]
    by_cases hk : key row = k
    · subst hk
      obtain ⟨old, hold⟩ := Option.ne_none_iff_exists'.mp h
      simp [hold]
    · simp [hk]

theorem insertNew_snd (t : Table key) (row : α) : (t.insertNew row).2 = (t.find? (key row)).isNone := by
  unfold insertNew
  by_cases h : t.find? (key row) = none
  · simp [h]
  · obtain ⟨old, hold⟩ := Option.ne_none_iff_exists'.mp h
    simp [hold]

theorem find?_update (t : Table key) (k k' : κ) (change : α → α) (keeps : ∀ row, key (change row) = key row) :
    (t.update k change keeps).find? k' = if k = k' then (t.find? k').map change else t.find? k' := by
  obtain ⟨rows, nodup⟩ := t
  simp only [find?, update]
  clear nodup
  induction rows with
  | nil => simp
  | cons row rest ih =>
    rw [List.map_cons, List.find?_cons, List.find?_cons, ih]
    by_cases hk : key row = k
    · simp only [hk, if_true, keeps]
      by_cases hk' : k = k' <;> simp [hk']
    · simp only [hk, if_false]
      by_cases hk' : key row = k'
      · have hne : ¬k = k' := fun h => hk (hk'.trans h.symm)
        simp [hk', hne]
      · simp [hk']

end Table
end PairIndex
