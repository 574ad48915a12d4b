import PairIndex.Json.Access

/-! What is found when a JSON value is looked into, and how looking fails: a member is there or is missing, and of all
values only an infinite number cannot be read as an integer for that reason (`Json.toInteger_eq_infinite_iff`). -/

namespace PairIndex

section Bind

variable {ε α β : Type} {x : Except ε α} {f : α → Except ε β}

theorem bind_eq_ok_iff {b : β} : x >>= f = .ok b ↔ ∃ a, x = .ok a ∧ f a = .ok b := by
  cases x with
  | error e => simp [bind, Except.bind]
  | ok a => simp [bind, Except.bind]

theorem bind_eq_error_iff {e : ε} : x >>= f = .error e ↔ x = .error e ∨ ∃ a, x = .ok a ∧ f a = .error e := by
  cases x with
  | error e' => simp [bind, Except.bind]
  | ok a => simp [bind, Except.bind]

end Bind

section MapError

variable {ε ε' α : Type} (f : ε → ε')

@[simp]
theorem mapError_ok (a : α) : (Except.ok a).mapError f = .ok a :=
  rfl

@[simp]
theorem mapError_error (e : ε) : (.error e : Except ε α).mapError f = .error (f e) :=
  rfl

end MapError

namespace Json

/-- What stands at the end of a path of keys, if all of them are there. -/
def at? : List String → Json → Option Json
  | [], value => some value
  | key :: path, value => (value.get? key).bind (at? path)

variable {key : String} {path : List String} {value found : Json}

theorem at?_nil_iff : value.at? [] = some found ↔ value = found :=
  Option.some_inj

theorem at?_cons_iff : value.at? (key :: path) = some found ↔ ∃ next, value.get? key = some next ∧ next.at? path = some found :=
  Option.bind_eq_some_iff

theorem member_eq_ok_iff : value.member key = .ok found ↔ value.get? key = some found := by
  cases value with
  | obj members =>
    rw [member, get?]
    cases Assoc.get? key members <;> simp
  | _ => simp [member, get?]

/-- Only an infinite number cannot be read for that reason. -/
theorem toInteger_eq_infinite_iff :
    value.toInteger = .error .infinite ↔ ∃ x negative, value = .float x ∧ x.shape = .infinite negative := by
  cases value with
  | float x =>
    have hcut : (Json.float x).toInteger = .error .infinite ↔ ∃ negative, x.shape = .infinite negative := by
      rw [toInteger, Double.truncate?]
      cases x.shape <;> simp
    simpa using hcut
  | str text =>
    rw [toInteger]
    split <;> simp
  | _ => simp [toInteger]

end Json

/-- An infinite number under a key. -/
def InfiniteAt (members : List (String × Json)) (key : String) : Prop :=
  ∃ x negative, Assoc.get? key members = some (.float x) ∧ x.shape = .infinite negative

theorem infiniteAt_iff {members : List (String × Json)} {key : String} :
    InfiniteAt members key ↔ ((Assoc.get? key members).getD .null).toInteger = .error .infinite := by
  rw [InfiniteAt, Json.toInteger_eq_infinite_iff]
  cases Assoc.get? key members <;> simp

end PairIndex
