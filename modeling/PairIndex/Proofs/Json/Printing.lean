import PairIndex.Proofs.Json.RoundTrip

/-! A text tells the value that was printed, however long its integers are (`Json.print_injective`). No parser is needed
for this: the first character tells what kind of value it is, and the text of a value ends where what may follow it
begins, so two values with the same text, each with something that may follow it, are the same value and are followed by
the same (`Json.printChars_append_inj`). -/

namespace PairIndex.Json

mutual

/-- A value has no doubles, whose texts are told by rounding. -/
def Exact : Json → Prop
  | .float _ => False
  | .arr items => ExactItems items
  | .obj members => ExactMembers members
  | _ => True

def ExactItems : List Json → Prop
  | [] => True
  | item :: rest => item.Exact ∧ ExactItems rest

def ExactMembers : List (String × Json) → Prop
  | [] => True
  | (_, value) :: rest => value.Exact ∧ ExactMembers rest

end

/-! ## Kinds of values -/

/-- The kinds of values that a first character tells apart. -/
inductive Form where
  | null
  | bool
  | number
  | text
  | list
  | object
  deriving DecidableEq

def form : Json → Form
  | .null => .null
  | .bool _ => .bool
  | .int _ | .float _ => .number
  | .str _ => .text
  | .arr _ => .list
  | .obj _ => .object

/-- The kind of the values that begin with a character, if any do. -/
def Form.ofChar? (c : Char) : Option Form :=
  if c = 'n' then some .null
  else if c = 't' ∨ c = 'f' then some .bool
  else if c = '-' ∨ c.isDigit = true then some .number
  else if c = '"' then some .text
  else if c = '[' then some .list
  else if c = '{' then some .object
  else none

theorem Form.ofChar?_of_sign {c : Char} (h : c = '-' ∨ c.isDigit = true) : ofChar? c = some .number := by
  have hne : ∀ d, (d = '-' ∨ d.isDigit = true → False) → c ≠ d := fun d hd heq => hd (heq ▸ h)
  have hbool : ¬(c = 't' ∨ c = 'f') := not_or.mpr ⟨hne 't' (by decide), hne 'f' (by decide)⟩
  rw [ofChar?, if_neg (hne 'n' (by decide)), if_neg hbool, if_pos h]

/-- The first character of a text tells the kind of the value. -/
theorem exists_head_printChars {value : Json} (h : value.Exact) :
    ∃ c rest, value.printChars = c :: rest ∧ Form.ofChar? c = some value.form := by
  cases value with
  | null => exact ⟨_, _, rfl, rfl⟩
  | bool b => cases b <;> exact ⟨_, _, rfl, rfl⟩
  | int n =>
    obtain ⟨c, rest, hchars, hsign⟩ := integerChars_eq_cons n
    exact ⟨c, rest, hchars, Form.ofChar?_of_sign hsign⟩
  | float x => exact h.elim
  | str text => exact ⟨_, _, rfl, rfl⟩
  | arr items => exact ⟨_, _, rfl, rfl⟩
  | obj members => exact ⟨_, _, rfl, rfl⟩

theorem form_eq_of_printChars_append {value value' : Json} {rest rest' : List Char} (hexact : value.Exact)
    (hexact' : value'.Exact) (h : value.printChars ++ rest = value'.printChars ++ rest') : value.form = value'.form := by
  obtain ⟨c, chars, hchars, hform⟩ := exists_head_printChars hexact
  obtain ⟨c', chars', hchars', hform'⟩ := exists_head_printChars hexact'
  rw [hchars, hchars', List.cons_append, List.cons_append] at h
  rw [(List.cons.inj h).1, hform'] at hform
  exact (Option.some.inj hform).symm

/-- A character that begins no value does not begin a text. -/
theorem printChars_append_ne {value : Json} {rest rest' : List Char} {c : Char} (hexact : value.Exact)
    (hc : Form.ofChar? c = none) : value.printChars ++ rest ≠ c :: rest' := by
  intro h
  obtain ⟨first, chars, hchars, hform⟩ := exists_head_printChars hexact
  rw [hchars, List.cons_append] at h
  rw [(List.cons.inj h).1, hc] at hform
  cases hform

/-! ## Texts and numbers -/

theorem quote_append_inj {text text' : String} {rest rest' : List Char}
    (h : quote text ++ rest = quote text' ++ rest') : text = text' ∧ rest = rest' := by
  rw [quote_append, quote_append] at h
  have hread := congrArg parseString (List.cons.inj h).2
  rw [parseString_escape, parseString_escape] at hread
  exact Prod.mk.inj (Except.ok.inj hread)

theorem decimalChars_append_inj {m n : ℕ} {rest rest' : List Char} (hrest : Follows rest) (hrest' : Follows rest')
    (h : Number.decimalChars m ++ rest = Number.decimalChars n ++ rest') : m = n ∧ rest = rest' := by
  have hspan := congrArg spanDigits h
  rw [spanDigits_decimalChars m hrest, spanDigits_decimalChars n hrest'] at hspan
  obtain ⟨hchars, hsame⟩ := Prod.mk.inj hspan
  have hvalue := congrArg digitsValue hchars
  rw [digitsValue_decimalChars, digitsValue_decimalChars] at hvalue
  exact ⟨hvalue, hsame⟩

/-- No digit is a sign. -/
theorem decimalChars_append_ne (n : ℕ) (rest chars : List Char) : Number.decimalChars n ++ rest ≠ '-' :: chars := by
  intro h
  obtain ⟨c, digits, hchars, hdigit, -⟩ := Number.decimalChars_eq_cons n
  rw [hchars, List.cons_append] at h
  rw [(List.cons.inj h).1] at hdigit
  cases hdigit

theorem integerChars_append_inj {m n : ℤ} {rest rest' : List Char} (hrest : Follows rest) (hrest' : Follows rest')
    (h : Number.integerChars m ++ rest = Number.integerChars n ++ rest') : m = n ∧ rest = rest' := by
  rw [Number.integerChars, Number.integerChars] at h
  split_ifs at h with hm hn hn
  · obtain ⟨habs, hsame⟩ := decimalChars_append_inj hrest hrest' (List.cons.inj h).2
    exact ⟨by omega, hsame⟩
  · exact absurd h.symm (decimalChars_append_ne _ _ _)
  · exact absurd h (decimalChars_append_ne _ _ _)
  · obtain ⟨habs, hsame⟩ := decimalChars_append_inj hrest hrest' h
    exact ⟨by omega, hsame⟩

/-! ## Lists and objects -/

/-- What follows an item of a list: its end and the rest, or the next items. -/
def afterItem (rest : List Char) : List Json → List Char
  | [] => ']' :: rest
  | next :: items => ',' :: ' ' :: (printItems (next :: items) ++ ']' :: rest)

theorem printItems_append (item : Json) (items : List Json) (rest : List Char) :
    printItems (item :: items) ++ ']' :: rest = item.printChars ++ afterItem rest items := by
  cases items with
  | nil => rfl
  | cons next items => simp only [printItems, afterItem, List.append_assoc, List.cons_append]

theorem follows_afterItem (rest : List Char) (items : List Json) : Follows (afterItem rest items) := by
  cases items with
  | nil => exact follows_cons (by simp) _
  | cons next items => exact follows_cons (by simp) _

/-- What follows a member of an object: its end and the rest, or the next members. -/
def afterMember (rest : List Char) : List (String × Json) → List Char
  | [] => '}' :: rest
  | next :: members => ',' :: ' ' :: (printMembers (next :: members) ++ '}' :: rest)

theorem printMembers_append (key : String) (value : Json) (members : List (String × Json)) (rest : List Char) :
    printMembers ((key, value) :: members) ++ '}' :: rest =
      quote key ++ ':' :: ' ' :: (value.printChars ++ afterMember rest members) := by
  cases members with
  | nil => simp only [printMembers, afterMember, List.append_assoc, List.cons_append]
  | cons next members => simp only [printMembers, afterMember, List.append_assoc, List.cons_append]

theorem follows_afterMember (rest : List Char) (members : List (String × Json)) :
    Follows (afterMember rest members) := by
  cases members with
  | nil => exact follows_cons (by simp) _
  | cons next members => exact follows_cons (by simp) _

mutual

/-- Values that have the same text in front of something that may follow are the same, and so is what follows. -/
theorem printChars_append_inj (value value' : Json) {rest rest' : List Char} (hexact : value.Exact)
    (hexact' : value'.Exact) (hrest : Follows rest) (hrest' : Follows rest')
    (h : value.printChars ++ rest = value'.printChars ++ rest') : value = value' ∧ rest = rest' := by
  have hform := form_eq_of_printChars_append hexact hexact' h
  match value, value', hexact, hexact', hform with
  | .null, .null, _, _, _ => exact ⟨rfl, List.append_cancel_left h⟩
  | .bool b, .bool b', _, _, _ =>
    cases b <;> cases b'
    · exact ⟨rfl, List.append_cancel_left h⟩
    · cases (List.cons.inj h).1
    · cases (List.cons.inj h).1
    · exact ⟨rfl, List.append_cancel_left h⟩
  | .int m, .int n, _, _, _ =>
    obtain ⟨rfl, hsame⟩ := integerChars_append_inj hrest hrest' h
    exact ⟨rfl, hsame⟩
  | .str text, .str text', _, _, _ =>
    obtain ⟨rfl, hsame⟩ := quote_append_inj h
    exact ⟨rfl, hsame⟩
  | .arr items, .arr items', hexact, hexact', _ =>
    simp only [printChars, List.cons_append, List.append_assoc, List.nil_append] at h
    obtain ⟨rfl, hsame⟩ := printItems_append_inj items items' hexact hexact' (List.cons.inj h).2
    exact ⟨rfl, hsame⟩
  | .obj members, .obj members', hexact, hexact', _ =>
    simp only [printChars, List.cons_append, List.append_assoc, List.nil_append] at h
    obtain ⟨rfl, hsame⟩ := printMembers_append_inj members members' hexact hexact' (List.cons.inj h).2
    exact ⟨rfl, hsame⟩

theorem printItems_append_inj (items items' : List Json) {rest rest' : List Char} (hexact : ExactItems items)
    (hexact' : ExactItems items') (h : printItems items ++ ']' :: rest = printItems items' ++ ']' :: rest') :
    items = items' ∧ rest = rest' := by
  match items, items', hexact, hexact' with
  | [], [], _, _ => exact ⟨rfl, (List.cons.inj h).2⟩
  | [], item' :: items', _, hexact' =>
    rw [printItems_append] at h
    exact absurd h.symm (printChars_append_ne hexact'.1 rfl)
  | item :: items, [], hexact, _ =>
    rw [printItems_append] at h
    exact absurd h (printChars_append_ne hexact.1 rfl)
  | item :: items, item' :: items', hexact, hexact' =>
    rw [printItems_append, printItems_append] at h
    obtain ⟨rfl, hafter⟩ := printChars_append_inj item item' hexact.1 hexact'.1 (follows_afterItem rest items)
      (follows_afterItem rest' items') h
    obtain ⟨rfl, hsame⟩ := afterItem_inj items items' hexact.2 hexact'.2 hafter
    exact ⟨rfl, hsame⟩

theorem afterItem_inj (items items' : List Json) {rest rest' : List Char} (hexact : ExactItems items)
    (hexact' : ExactItems items') (h : afterItem rest items = afterItem rest' items') :
    items = items' ∧ rest = rest' := by
  match items, items' with
  | [], [] => exact ⟨rfl, (List.cons.inj h).2⟩
  | [], _ :: _ => cases (List.cons.inj h).1
  | _ :: _, [] => cases (List.cons.inj h).1
  | next :: items, next' :: items' =>
    exact printItems_append_inj (next :: items) (next' :: items') hexact hexact' (List.cons.inj (List.cons.inj h).2).2

theorem printMembers_append_inj (members members' : List (String × Json)) {rest rest' : List Char}
    (hexact : ExactMembers members) (hexact' : ExactMembers members')
    (h : printMembers members ++ '}' :: rest = printMembers members' ++ '}' :: rest') :
    members = members' ∧ rest = rest' := by
  match members, members', hexact, hexact' with
  | [], [], _, _ => exact ⟨rfl, (List.cons.inj h).2⟩
  | [], (key', value') :: members', _, _ =>
    rw [printMembers_append, quote_append] at h
    cases (List.cons.inj h).1
  | (key, value) :: members, [], _, _ =>
    rw [printMembers_append, quote_append] at h
    cases (List.cons.inj h).1
  | (key, value) :: members, (key', value') :: members', hexact, hexact' =>
    rw [printMembers_append, printMembers_append] at h
    obtain ⟨rfl, hvalue⟩ := quote_append_inj h
    obtain ⟨rfl, hafter⟩ := printChars_append_inj value value' hexact.1 hexact'.1 (follows_afterMember rest members)
      (follows_afterMember rest' members') (List.cons.inj (List.cons.inj hvalue).2).2
    obtain ⟨rfl, hsame⟩ := afterMember_inj members members' hexact.2 hexact'.2 hafter
    exact ⟨rfl, hsame⟩

theorem afterMember_inj (members members' : List (String × Json)) {rest rest' : List Char}
    (hexact : ExactMembers members) (hexact' : ExactMembers members')
    (h : afterMember rest members = afterMember rest' members') : members = members' ∧ rest = rest' := by
  match members, members' with
  | [], [] => exact ⟨rfl, (List.cons.inj h).2⟩
  | [], _ :: _ => cases (List.cons.inj h).1
  | _ :: _, [] => cases (List.cons.inj h).1
  | next :: members, next' :: members' =>
    exact printMembers_append_inj (next :: members) (next' :: members') hexact hexact'
      (List.cons.inj (List.cons.inj h).2).2

end

theorem print_injective {value value' : Json} (hexact : value.Exact) (hexact' : value'.Exact)
    (h : value.print = value'.print) : value = value' := by
  have hchars : value.printChars ++ [] = value'.printChars ++ [] := by
    rw [List.append_nil, List.append_nil]
    exact String.ofList_injective h
  have hend : Follows [] := nofun
  exact (printChars_append_inj value value' hexact hexact' hend hend hchars).1

end PairIndex.Json
