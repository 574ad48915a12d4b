/-! Lists of pairs that are read as finite maps. A known key keeps its place when its value changes, and a new key comes
last; the value of a key is that of the first pair that has it. -/

namespace PairIndex.Assoc

variable {κ α : Type} [DecidableEq κ]

def get? (key : κ) (pairs : List (κ × α)) : Option α :=
  (pairs.find? fun p => decide (p.1 = key)).map (·.2)

def mem (key : κ) (pairs : List (κ × α)) : Bool :=
  pairs.any fun p => decide (p.1 = key)

/-- The map in which a key has the given value. -/
def set (key : κ) (value : α) : List (κ × α) → List (κ × α)
  | [] => [(key, value)]
  | p :: rest => if p.1 = key then (key, value) :: rest else p :: set key value rest

def erase (key : κ) (pairs : List (κ × α)) : List (κ × α) :=
  pairs.filter fun p => decide (p.1 ≠ key)

@[simp]
theorem get?_nil (key : κ) : get? key ([] : List (κ × α)) = none := rfl

theorem get?_cons (key : κ) (p : κ × α) (rest : List (κ × α)) :
    get? key (p :: rest) = if p.1 = key then some p.2 else get? key rest := by
  by_cases h : p.1 = key <;> simp [get?, h]

theorem get?_set (key : κ) (value : α) (pairs : List (κ × α)) (other : κ) :
    get? other (set key value pairs) = if key = other then some value else get? other pairs := by
  induction pairs with
  | nil => by_cases h : key = other <;> simp [set, get?_cons, h]
  | cons p rest ih =>
    by_cases hp : p.1 = key
    · subst hp
      by_cases h : p.1 = other <;> simp [set, get?_cons, h]
    · rw [set, if_neg hp, get?_cons, get?_cons, ih]
      by_cases ho : p.1 = other
      · subst ho
        simp [Ne.symm hp]
      · simp [ho]

theorem get?_erase (key : κ) (pairs : List (κ × α)) (other : κ) :
    get? other (erase key pairs) = if key = other then none else get? other pairs := by
  induction pairs with
  | nil => simp [erase]
  | cons p rest ih =>
    have step : erase key (p :: rest) = if p.1 = key then erase key rest else p :: erase key rest := by
      by_cases hp : p.1 = key <;> simp [erase, hp]
    rw [step]
    by_cases hp : p.1 = key
    · rw [if_pos hp, ih, get?_cons, hp]
      by_cases h : key = other <;> simp [h]
    · rw [if_neg hp, get?_cons, get?_cons, ih]
      by_cases ho : p.1 = other
      · subst ho
        simp [Ne.symm hp]
      · simp [ho]

theorem mem_eq_isSome (key : κ) (pairs : List (κ × α)) : mem key pairs = (get? key pairs).isSome := by
  induction pairs with
  | nil => rfl
  | cons p rest ih => by_cases h : p.1 = key <;> simp_all [mem, get?]

end PairIndex.Assoc
