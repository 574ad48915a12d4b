import PairIndex.Json.Parser
import PairIndex.Json.Printer
import PairIndex.Proofs.Number.Decimal

/-! Reading what was written. A value without doubles whose integers are not too long and whose objects have one member a
key is read back from its text as it was (`Json.parse_print`), so that the text tells the value (`Json.print_inj`). -/

namespace PairIndex.Json

theorem ok_bind {ε α β : Type} (a : α) (f : α → Except ε β) : ((.ok a : Except ε α) >>= f) = f a := rfl

/-! ## Strings -/

/-- The code units of a character: one, or a high and a low surrogate. -/
def units (c : Char) : List Nat :=
  if c.toNat < 0x10000 then [c.toNat]
  else [0xd800 + (c.toNat - 0x10000) / 0x400, 0xdc00 + (c.toNat - 0x10000) % 0x400]

theorem units_of_lt {c : Char} (h : c.toNat < 0x10000) : units c = [c.toNat] :=
  if_pos h

theorem hexQuad?_unitEscape {unit : Nat} (h : unit < 0x10000) :
    hexQuad? (Bytes.hexDigit (unit / 4096 % 16)) (Bytes.hexDigit (unit / 256 % 16)) (Bytes.hexDigit (unit / 16 % 16))
      (Bytes.hexDigit (unit % 16)) = some unit := by
  have hdigit : ∀ d < 16, Bytes.hexValue? (Bytes.hexDigit d) = some d := by decide
  rw [hexQuad?, hdigit _ (Nat.mod_lt _ (by decide)), hdigit _ (Nat.mod_lt _ (by decide)),
    hdigit _ (Nat.mod_lt _ (by decide)), hdigit _ (Nat.mod_lt _ (by decide))]
  simp only [Option.bind_eq_bind, Option.bind_some, Option.pure_def, Option.some.injEq]
  omega

/-- Code points in front of those that are read from a text. -/
def prepend (codes : List Nat) (read : Option (List Nat × List Char)) : Option (List Nat × List Char) :=
  read.map fun (more, rest) => (codes ++ more, rest)

theorem stringCodes_unitEscape {unit : Nat} (h : unit < 0x10000) (rest : List Char) :
    stringCodes (unitEscape unit ++ rest) = prepend [unit] (stringCodes rest) := by
  simp only [unitEscape, List.cons_append, List.nil_append, stringCodes, hexQuad?_unitEscape h]
  cases stringCodes rest <;> rfl

theorem stringCodes_plain {c : Char} (hquote : c ≠ '"') (hslash : c ≠ '\\') (hprintable : 0x20 ≤ c.toNat)
    (rest : List Char) : stringCodes (c :: rest) = prepend [c.toNat] (stringCodes rest) := by
  have hnot : ¬(c.toNat < 0x20 ∨ c = '\\') := by simp [hslash, Nat.not_lt.mpr hprintable]
  rw [stringCodes.eq_def]
  split
  · next h => cases h
  · next h => exact absurd (List.cons.inj h).1 hquote
  · next h => exact absurd (List.cons.inj h).1 hslash
  · next h => exact absurd (List.cons.inj h).1 hslash
  · next h =>
    obtain ⟨rfl, rfl⟩ := List.cons.inj h
    rw [if_neg hnot]
    cases stringCodes rest <;> rfl

theorem stringCodes_escape {e : Char} {code : Nat} (he : e ≠ 'u') (hcode : simpleEscape? e = some code)
    (rest : List Char) : stringCodes ('\\' :: e :: rest) = prepend [code] (stringCodes rest) := by
  rw [stringCodes.eq_def]
  split
  · next h => cases h
  · next h => exact absurd (List.cons.inj h).1 (by decide)
  · next h => exact absurd (List.cons.inj (List.cons.inj h).2).1 he
  · next h =>
    obtain ⟨rfl, rfl⟩ := List.cons.inj (List.cons.inj h).2
    rw [hcode]
    cases stringCodes rest <;> rfl
  · next hno h =>
    obtain ⟨rfl, rfl⟩ := List.cons.inj h
    exact absurd rfl (hno e rest rfl)

/-- A character is no surrogate. -/
theorem scalar (c : Char) : ¬(0xd800 ≤ c.toNat ∧ c.toNat ≤ 0xdfff) ∧ c.toNat < 0x110000 := by
  have hvalid : c.toNat < 0xd800 ∨ 0xdfff < c.toNat ∧ c.toNat < 0x110000 := c.valid
  omega

/-- The escape of a character is read as its code units. -/
theorem stringCodes_escapeChar (c : Char) (rest : List Char) :
    stringCodes (escapeChar c ++ rest) = prepend (units c) (stringCodes rest) := by
  rw [escapeChar]
  split_ifs with h1 h2 h3 h4 h5 h6 h7 hprintable hsmall
  iterate 7
    · subst_vars
      exact stringCodes_escape (by decide) rfl rest
  · rw [units_of_lt (by omega)]
    exact stringCodes_plain h1 h2 hprintable.1 rest
  · rw [units_of_lt hsmall]
    exact stringCodes_unitEscape hsmall rest
  · have hlt := (scalar c).2
    rw [units, if_neg hsmall, List.append_assoc, stringCodes_unitEscape (by omega), stringCodes_unitEscape (by omega)]
    cases stringCodes rest <;> rfl

/-- Code units stand for their character, whatever follows. -/
theorem joinSurrogates_units (c : Char) (codes : List Nat) :
    joinSurrogates (units c ++ codes) = c :: joinSurrogates codes := by
  obtain ⟨hscalar, hlt⟩ := scalar c
  rw [units]
  split_ifs with hsmall
  · have hplain : ¬(0xd800 ≤ c.toNat ∧ c.toNat ≤ 0xdfff) := by omega
    cases codes with
    | nil => simp only [List.append_nil, joinSurrogates, if_neg hplain, Char.ofNat_toNat]
    | cons low codes =>
      have hhigh : ¬(0xd800 ≤ c.toNat ∧ c.toNat ≤ 0xdbff ∧ 0xdc00 ≤ low ∧ low ≤ 0xdfff) := by omega
      simp only [List.cons_append, List.nil_append, joinSurrogates, if_neg hhigh, if_neg hplain, Char.ofNat_toNat]
  · have hpair : 0xd800 ≤ 0xd800 + (c.toNat - 0x10000) / 0x400 ∧ 0xd800 + (c.toNat - 0x10000) / 0x400 ≤ 0xdbff ∧
        0xdc00 ≤ 0xdc00 + (c.toNat - 0x10000) % 0x400 ∧ 0xdc00 + (c.toNat - 0x10000) % 0x400 ≤ 0xdfff := by omega
    have hcode : 0x10000 + (0xd800 + (c.toNat - 0x10000) / 0x400 - 0xd800) * 0x400 +
        (0xdc00 + (c.toNat - 0x10000) % 0x400 - 0xdc00) = c.toNat := by omega
    rw [List.cons_append, List.cons_append, List.nil_append, joinSurrogates, if_pos hpair, hcode, Char.ofNat_toNat]

/-- A text is read back from its quoted form. -/
theorem parseString_escape (text : String) (rest : List Char) :
    parseString (text.toList.flatMap escapeChar ++ '"' :: rest) = .ok (text, rest) := by
  have hcodes : stringCodes (text.toList.flatMap escapeChar ++ '"' :: rest) = some (text.toList.flatMap units, rest) := by
    induction text.toList with
    | nil => rfl
    | cons c chars ih =>
      rw [List.flatMap_cons, List.append_assoc, stringCodes_escapeChar, ih, List.flatMap_cons]
      rfl
  have hjoin : joinSurrogates (text.toList.flatMap units) = text.toList := by
    induction text.toList with
    | nil => rfl
    | cons c chars ih => rw [List.flatMap_cons, joinSurrogates_units, ih]
  rw [parseString, hcodes]
  simp only [hjoin, String.ofList_toList]

/-! ## Numbers -/

theorem digitsValue_decimalChars (n : Nat) : digitsValue (Number.decimalChars n) = n := by
  rw [digitsValue, Number.decimalChars]
  split
  · next h =>
    rw [h]
    rfl
  · have hback : ∀ d ∈ (Number.decimalDigits n).reverse, ((fun c : Char => c.toNat - 48) ∘ Number.digitChar) d = d := by
      intro d hd
      have hchar := Number.toNat_digitChar (Number.lt_of_mem_decimalDigits (List.mem_reverse.mp hd))
      rw [Function.comp_apply, hchar]
      omega
    rw [List.map_map, List.map_congr_left hback, List.map_id', Number.ofDigits_reverse_decimalDigits]

/-- What may follow a value inside a text: nothing, or the next item or the end of the value that it is part of. -/
def Follows (rest : List Char) : Prop :=
  ∀ c ∈ rest.head?, c = ',' ∨ c = ']' ∨ c = '}'

theorem spanDigits_decimalChars (n : Nat) {rest : List Char} (hrest : Follows rest) :
    spanDigits (Number.decimalChars n ++ rest) = (Number.decimalChars n, rest) := by
  have hdigits : ∀ c ∈ Number.decimalChars n, c.isDigit = true := fun _ => Number.isDigit_of_mem_decimalChars
  rw [spanDigits, List.span_eq_takeWhile_dropWhile, List.takeWhile_append_of_pos hdigits,
    List.dropWhile_append_of_pos hdigits]
  cases rest with
  | nil => rw [List.takeWhile_nil, List.dropWhile_nil, List.append_nil]
  | cons c rest =>
    have hend : ¬c.isDigit = true := by rcases hrest c rfl with rfl | rfl | rfl <;> decide
    rw [List.takeWhile_cons_of_neg hend, List.dropWhile_cons_of_neg hend, List.append_nil]

theorem wholePart_decimalChars (n : Nat) {rest : List Char} (hrest : Follows rest) :
    wholePart (Number.decimalChars n ++ rest) = (Number.decimalChars n, rest) := by
  obtain ⟨c, digits, hchars, -, hzero⟩ := Number.decimalChars_eq_cons n
  by_cases hn : n = 0
  · rw [hn]
    rfl
  · have hspan := spanDigits_decimalChars n hrest
    rw [hchars, List.cons_append] at hspan ⊢
    rw [wholePart, hspan]
    intro rest' heq
    exact hn (hzero (List.cons.inj heq).1)

theorem fractionPart_of_follows {rest : List Char} (h : Follows rest) : fractionPart rest = ([], rest) := by
  cases rest with
  | nil => rfl
  | cons c rest => rcases h c rfl with rfl | rfl | rfl <;> rfl

theorem exponentPart_of_follows {rest : List Char} (h : Follows rest) : exponentPart rest = (none, rest) := by
  cases rest with
  | nil => rfl
  | cons c rest => rcases h c rfl with rfl | rfl | rfl <;> rfl

theorem parseNumber_decimalChars (negative : Bool) {n : Nat} {rest : List Char}
    (hlength : (Number.decimalChars n).length ≤ Number.digitLimit) (hrest : Follows rest) :
    parseNumber negative (Number.decimalChars n ++ rest) = .ok (.int (if negative then -(n : Int) else n), rest) := by
  obtain ⟨c, digits, hchars, -⟩ := Number.decimalChars_eq_cons n
  have hne : (Number.decimalChars n).isEmpty = false := by rw [hchars]; rfl
  rw [parseNumber, wholePart_decimalChars n hrest]
  simp only [hne, fractionPart_of_follows hrest, exponentPart_of_follows hrest, Bool.false_eq_true, if_false,
    List.isEmpty_nil, Option.isNone_none, and_self, if_true, if_neg (Nat.not_lt.mpr hlength), digitsValue_decimalChars]

theorem parseScalar_of_digit {c : Char} (h : c.isDigit = true) (rest : List Char) :
    parseScalar (c :: rest) = parseNumber false (c :: rest) := by
  have hne : ∀ d : Char, d.isDigit = false → d ≠ c := by
    rintro d hd rfl
    rw [h] at hd
    cases hd
  have hminus : ∀ rest', c :: rest = '-' :: rest' → False := fun _ heq => hne '-' rfl (List.cons.inj heq).1.symm
  simp [parseScalar, namedValues, stripWord, hne 'n' rfl, hne 't' rfl, hne 'f' rfl, hne 'N' rfl, hne 'I' rfl, hne '-' rfl]

theorem parseScalar_of_minus {c : Char} (h : c.isDigit = true) (rest : List Char) :
    parseScalar ('-' :: c :: rest) = parseNumber true (c :: rest) := by
  have hne : 'I' ≠ c := by
    rintro rfl
    cases h
  simp [parseScalar, namedValues, stripWord, hne]

theorem stripWord_self (word : String) (rest : List Char) : stripWord word (word.toList ++ rest) = some rest := by
  rw [stripWord, if_pos (List.isPrefixOf_iff_prefix.mpr (List.prefix_append ..)), ← String.length_toList, List.drop_left]

theorem parseScalar_null (rest : List Char) : parseScalar ("null".toList ++ rest) = .ok (.null, rest) := by
  simp only [parseScalar, namedValues, List.findSome?_cons, stripWord_self, Option.map_some]

theorem parseScalar_true (rest : List Char) : parseScalar ("true".toList ++ rest) = .ok (.bool true, rest) := by
  have hnull : stripWord "null" ("true".toList ++ rest) = none := rfl
  simp only [parseScalar, namedValues, List.findSome?_cons, hnull, stripWord_self, Option.map_none, Option.map_some]

theorem parseScalar_false (rest : List Char) : parseScalar ("false".toList ++ rest) = .ok (.bool false, rest) := by
  have hnull : stripWord "null" ("false".toList ++ rest) = none := rfl
  have htrue : stripWord "true" ("false".toList ++ rest) = none := rfl
  simp only [parseScalar, namedValues, List.findSome?_cons, hnull, htrue, stripWord_self, Option.map_none,
    Option.map_some]

/-- The text of an integer begins with a sign or a digit. -/
theorem integerChars_eq_cons (n : Int) :
    ∃ c rest, Number.integerChars n = c :: rest ∧ (c = '-' ∨ c.isDigit = true) := by
  obtain ⟨c, digits, hchars, hdigit, -⟩ := Number.decimalChars_eq_cons n.natAbs
  rw [Number.integerChars, hchars]
  split
  · exact ⟨'-', _, rfl, .inl rfl⟩
  · exact ⟨c, digits, rfl, .inr hdigit⟩

/-- An integer is read back from its text. -/
theorem parseScalar_integerChars {n : Int} {rest : List Char}
    (hlength : (Number.decimalChars n.natAbs).length ≤ Number.digitLimit) (hrest : Follows rest) :
    parseScalar (Number.integerChars n ++ rest) = .ok (.int n, rest) := by
  obtain ⟨c, digits, hchars, hdigit, -⟩ := Number.decimalChars_eq_cons n.natAbs
  have hnumber : ∀ negative, parseNumber negative (c :: (digits ++ rest)) =
      .ok (.int (if negative then -(n.natAbs : Int) else n.natAbs), rest) := by
    intro negative
    rw [← List.cons_append, ← hchars]
    exact parseNumber_decimalChars negative hlength hrest
  rw [Number.integerChars]
  split
  · next hneg =>
    rw [hchars, List.cons_append, List.cons_append, parseScalar_of_minus hdigit, hnumber, if_pos rfl]
    congr 3
    omega
  · next hpos =>
    rw [hchars, List.cons_append, parseScalar_of_digit hdigit, hnumber, if_neg Bool.false_ne_true]
    congr 3
    omega

/-! ## Values -/

mutual

/-- A value whose text is read back as the value: it has no doubles, no integers that are too long, and no two members of
one key. -/
def Readable : Json → Prop
  | .null => True
  | .bool _ => True
  | .int n => (Number.decimalChars n.natAbs).length ≤ Number.digitLimit
  | .float _ => False
  | .str _ => True
  | .arr items => ReadableItems items
  | .obj members => (members.map (·.1)).Nodup ∧ ReadableMembers members

def ReadableItems : List Json → Prop
  | [] => True
  | item :: rest => item.Readable ∧ ReadableItems rest

def ReadableMembers : List (String × Json) → Prop
  | [] => True
  | (_, value) :: rest => value.Readable ∧ ReadableMembers rest

end

theorem skipSpace_cons {c : Char} (h : isSpace c = false) (rest : List Char) : skipSpace (c :: rest) = c :: rest := by
  rw [skipSpace, List.dropWhile_cons_of_neg (by simp [h])]

/-- The text of a value begins with a character that is no blank and ends no list. -/
theorem printChars_eq_cons (value : Json) (h : value.Readable) :
    ∃ c rest, value.printChars = c :: rest ∧ isSpace c = false ∧ c ≠ ']' := by
  cases value with
  | null => exact ⟨'n', _, rfl, rfl, by decide⟩
  | bool b => cases b <;> exact ⟨_, _, rfl, rfl, by decide⟩
  | int n =>
    obtain ⟨c, rest, hchars, hsign⟩ := integerChars_eq_cons n
    have hne : ∀ d, (d = '-' ∨ d.isDigit = true → False) → c ≠ d := fun d hd heq => hd (heq ▸ hsign)
    refine ⟨c, rest, hchars, ?_, hne ']' (by decide)⟩
    simp only [isSpace, beq_eq_false_iff_ne.mpr (hne ' ' (by decide)), beq_eq_false_iff_ne.mpr (hne '\t' (by decide)),
      beq_eq_false_iff_ne.mpr (hne '\n' (by decide)), beq_eq_false_iff_ne.mpr (hne '\r' (by decide)), Bool.or_self]
  | float x => exact h.elim
  | str text => exact ⟨'"', _, rfl, rfl, by decide⟩
  | arr items => exact ⟨'[', _, rfl, rfl, by decide⟩
  | obj members => exact ⟨'{', _, rfl, rfl, by decide⟩

theorem set_of_not_mem {key : String} {value : Json} {members : List (String × Json)}
    (h : key ∉ members.map (·.1)) : Assoc.set key value members = members ++ [(key, value)] := by
  induction members with
  | nil => rfl
  | cons p rest ih =>
    rw [List.map_cons, List.mem_cons, not_or] at h
    rw [Assoc.set, if_neg (Ne.symm h.1), ih h.2, List.cons_append]

theorem parseValue_scalar {fuel : Nat} {c : Char} {rest : List Char} (hquote : c ≠ '"') (hlist : c ≠ '[')
    (hobject : c ≠ '{') : parseValue (fuel + 1) (c :: rest) = parseScalar (c :: rest) := by
  rw [parseValue]
  · exact fun _ heq => hquote (List.cons.inj heq).1
  · exact fun _ heq => hlist (List.cons.inj heq).1
  · exact fun _ heq => hobject (List.cons.inj heq).1

theorem follows_cons {c : Char} (h : c = ',' ∨ c = ']' ∨ c = '}') (rest : List Char) : Follows (c :: rest) := by
  intro c' hc'
  cases hc'
  exact h

theorem quote_append (text : String) (rest : List Char) :
    quote text ++ rest = '"' :: (text.toList.flatMap escapeChar ++ '"' :: rest) := by
  rw [quote, List.cons_append, List.cons_append, List.append_assoc, List.singleton_append]

/-- The text of a list or of a member begins with the text of the value in front. -/
theorem printItems_eq_append (item : Json) (items : List Json) :
    ∃ more, printItems (item :: items) = item.printChars ++ more := by
  cases items with
  | nil => exact ⟨[], (List.append_nil _).symm⟩
  | cons next items => exact ⟨_, rfl⟩

theorem printMembers_eq_append (member : String × Json) (members : List (String × Json)) :
    ∃ more, printMembers (member :: members) = quote member.1 ++ more := by
  cases members with
  | nil => exact ⟨_, rfl⟩
  | cons next members => exact ⟨_, List.append_assoc ..⟩

theorem parseValue_arr {fuel : Nat} {c : Char} {chars after : List Char} {items : List Json} (hspace : isSpace c = false)
    (hend : c ≠ ']') (hitems : parseItems fuel (c :: chars) = .ok (items, after)) :
    parseValue (fuel + 1) ('[' :: c :: chars) = .ok (.arr items, after) := by
  rw [parseValue, skipSpace_cons hspace]
  split
  · next heq => exact absurd (List.cons.inj heq).1 hend
  · rw [hitems]
    rfl

theorem parseValue_obj {fuel : Nat} {chars after : List Char} {members : List (String × Json)}
    (hmembers : parseMembers fuel [] ('"' :: chars) = .ok (members, after)) :
    parseValue (fuel + 1) ('{' :: '"' :: chars) = .ok (.obj members, after) := by
  rw [parseValue, skipSpace_cons rfl]
  split
  · next heq => exact absurd (List.cons.inj heq).1 (by decide)
  · rw [hmembers]
    rfl

theorem parseItems_cons {fuel : Nat} {chars more after : List Char} {item : Json} {items : List Json}
    (hitem : parseValue fuel chars = .ok (item, ',' :: ' ' :: more)) (hspace : skipSpace more = more)
    (hitems : parseItems fuel more = .ok (items, after)) :
    parseItems (fuel + 1) chars = .ok (item :: items, after) := by
  have hmore : skipSpace (' ' :: more) = more := hspace
  rw [parseItems, hitem]
  simp only [ok_bind, skipSpace_cons (c := ',') rfl, hmore, hitems]
  rfl

theorem parseMembers_last {fuel : Nat} {key : String} {before : List (String × Json)} {chars after : List Char}
    {value : Json} (hkey : key ∉ before.map (·.1)) (hspace : skipSpace chars = chars)
    (hvalue : parseValue fuel chars = .ok (value, '}' :: after)) :
    parseMembers (fuel + 1) before (quote key ++ ':' :: ' ' :: chars) = .ok (before ++ [(key, value)], after) := by
  have hchars : skipSpace (' ' :: chars) = chars := hspace
  rw [quote_append, parseMembers, parseString_escape]
  simp only [ok_bind, skipSpace_cons (c := ':') rfl, hchars, hvalue, skipSpace_cons (c := '}') rfl,
    set_of_not_mem hkey]
  rfl

theorem parseMembers_cons {fuel : Nat} {key : String} {before : List (String × Json)} {chars more : List Char}
    {value : Json} {result : Except ParseError (List (String × Json) × List Char)} (hkey : key ∉ before.map (·.1))
    (hspace : skipSpace chars = chars) (hvalue : parseValue fuel chars = .ok (value, ',' :: ' ' :: more))
    (hspace' : skipSpace more = more) (hmembers : parseMembers fuel (before ++ [(key, value)]) more = result) :
    parseMembers (fuel + 1) before (quote key ++ ':' :: ' ' :: chars) = result := by
  have hchars : skipSpace (' ' :: chars) = chars := hspace
  have hmore : skipSpace (' ' :: more) = more := hspace'
  rw [quote_append, parseMembers, parseString_escape]
  simp only [ok_bind, skipSpace_cons (c := ':') rfl, hchars, hvalue, skipSpace_cons (c := ',') rfl, hmore,
    set_of_not_mem hkey, hmembers]

/-- After an item or a member comes the next one. -/
theorem skipSpace_printItems {item : Json} (h : item.Readable) (items : List Json) (rest : List Char) :
    skipSpace (printItems (item :: items) ++ rest) = printItems (item :: items) ++ rest := by
  obtain ⟨c, chars, hchars, hspace, -⟩ := printChars_eq_cons item h
  obtain ⟨more, hmore⟩ := printItems_eq_append item items
  rw [hmore, hchars]
  exact skipSpace_cons hspace _

theorem skipSpace_printMembers (member : String × Json) (members : List (String × Json)) (rest : List Char) :
    skipSpace (printMembers (member :: members) ++ rest) = printMembers (member :: members) ++ rest := by
  obtain ⟨more, hmore⟩ := printMembers_eq_append member members
  rw [hmore, List.append_assoc, quote_append]
  exact skipSpace_cons rfl _

theorem skipSpace_printChars {value : Json} (h : value.Readable) (rest : List Char) :
    skipSpace (value.printChars ++ rest) = value.printChars ++ rest := by
  obtain ⟨c, chars, hchars, hspace, -⟩ := printChars_eq_cons value h
  rw [hchars]
  exact skipSpace_cons hspace _

mutual

/-- A value is read back from its text, if the fuel exceeds the length of the text. -/
theorem parseValue_printChars (fuel : Nat) (value : Json) (rest : List Char) (h : value.Readable) (hrest : Follows rest)
    (hfuel : value.printChars.length < fuel) : parseValue fuel (value.printChars ++ rest) = .ok (value, rest) := by
  obtain ⟨fuel, rfl⟩ : ∃ f, fuel = f + 1 := ⟨fuel - 1, by omega⟩
  match value, h with
  | .null, _ => exact (parseValue_scalar (by decide) (by decide) (by decide)).trans (parseScalar_null rest)
  | .bool b, _ =>
    cases b
    · exact (parseValue_scalar (by decide) (by decide) (by decide)).trans (parseScalar_false rest)
    · exact (parseValue_scalar (by decide) (by decide) (by decide)).trans (parseScalar_true rest)
  | .int n, h =>
    obtain ⟨c, chars, hchars, hsign⟩ := integerChars_eq_cons n
    have hne : ∀ d, (d = '-' ∨ d.isDigit = true → False) → c ≠ d := fun d hd heq => hd (heq ▸ hsign)
    have hread := parseScalar_integerChars h hrest
    rw [hchars] at hread
    simp only [printChars, hchars]
    exact (parseValue_scalar (hne _ (by decide)) (hne _ (by decide)) (hne _ (by decide))).trans hread
  | .str text, _ =>
    rw [printChars, quote_append, parseValue, parseString_escape]
    rfl
  | .arr [], _ => rfl
  | .arr (item :: items), h =>
    simp only [printChars, List.length_cons, List.length_append] at hfuel
    have hitems := parseItems_printItems fuel item items rest h (by omega)
    obtain ⟨c, chars, hchars, hspace, hend⟩ := printChars_eq_cons item h.1
    obtain ⟨more, hmore⟩ := printItems_eq_append item items
    simp only [printChars, List.cons_append, List.append_assoc, List.nil_append]
    rw [hmore, hchars, List.cons_append, List.cons_append] at hitems ⊢
    exact parseValue_arr hspace hend hitems
  | .obj [], _ => rfl
  | .obj (member :: members), h =>
    simp only [printChars, List.length_cons, List.length_append] at hfuel
    have hmembers := parseMembers_printMembers fuel [] member members rest h.2 h.1 (by omega)
    obtain ⟨more, hmore⟩ := printMembers_eq_append member members
    simp only [printChars, List.cons_append, List.append_assoc, List.nil_append]
    rw [hmore, List.append_assoc, quote_append] at hmembers ⊢
    exact parseValue_obj hmembers

/-- The items of a list are read back up to its end. -/
theorem parseItems_printItems (fuel : Nat) (item : Json) (items : List Json) (rest : List Char)
    (h : ReadableItems (item :: items)) (hfuel : (printItems (item :: items)).length + 1 < fuel) :
    parseItems fuel (printItems (item :: items) ++ ']' :: rest) = .ok (item :: items, rest) := by
  obtain ⟨fuel, rfl⟩ : ∃ f, fuel = f + 1 := ⟨fuel - 1, by omega⟩
  match items, h with
  | [], h =>
    have hread := parseValue_printChars fuel item (']' :: rest) h.1 (follows_cons (by simp) rest)
      (by simpa [printItems] using hfuel)
    rw [printItems, parseItems, hread]
    rfl
  | next :: items, h =>
    simp only [printItems, List.length_append, List.length_cons] at hfuel
    have hread := parseValue_printChars fuel item (',' :: ' ' :: (printItems (next :: items) ++ ']' :: rest)) h.1
      (follows_cons (by simp) _) (by omega)
    have hmore := parseItems_printItems fuel next items rest h.2 (by omega)
    simp only [printItems, List.append_assoc, List.cons_append]
    exact parseItems_cons hread (skipSpace_printItems h.2.1 items _) hmore

/-- The members of an object are read back up to its end, after those already read. -/
theorem parseMembers_printMembers (fuel : Nat) (before : List (String × Json)) (member : String × Json)
    (members : List (String × Json)) (rest : List Char) (h : ReadableMembers (member :: members))
    (hkeys : ((before ++ member :: members).map (·.1)).Nodup) (hfuel : (printMembers (member :: members)).length + 1 < fuel) :
    parseMembers fuel before (printMembers (member :: members) ++ '}' :: rest) = .ok (before ++ member :: members, rest) := by
  obtain ⟨fuel, rfl⟩ : ∃ f, fuel = f + 1 := ⟨fuel - 1, by omega⟩
  obtain ⟨key, value⟩ := member
  have hkey : key ∉ before.map (·.1) := by
    rw [List.map_append, List.nodup_append] at hkeys
    exact fun hmem => hkeys.2.2 key hmem key List.mem_cons_self rfl
  match members, h with
  | [], h =>
    simp only [printMembers, List.length_append, List.length_cons] at hfuel
    have hread := parseValue_printChars fuel value ('}' :: rest) h.1 (follows_cons (by simp) rest) (by omega)
    simp only [printMembers, List.append_assoc, List.cons_append]
    exact parseMembers_last hkey (skipSpace_printChars h.1 _) hread
  | next :: members, h =>
    simp only [printMembers, List.length_append, List.length_cons] at hfuel
    have hread := parseValue_printChars fuel value (',' :: ' ' :: (printMembers (next :: members) ++ '}' :: rest)) h.1
      (follows_cons (by simp) _) (by omega)
    have hmore := parseMembers_printMembers fuel (before ++ [(key, value)]) next members rest h.2 (by simpa using hkeys)
      (by omega)
    rw [List.append_assoc, List.singleton_append] at hmore
    simp only [printMembers, List.append_assoc, List.cons_append]
    exact parseMembers_cons hkey (skipSpace_printChars h.1 _) hread (skipSpace_printMembers next members _) hmore

end

/-- A value is read back from its text. -/
theorem parse_print {value : Json} (h : value.Readable) : parse value.print = .ok value := by
  have hread := parseValue_printChars (value.printChars.length + 1) value [] h nofun (Nat.lt_succ_self _)
  have hspace := skipSpace_printChars h []
  rw [List.append_nil] at hread hspace
  rw [parse, print, String.toList_ofList, hspace, hread]
  rfl

/-- The text of a value tells the value. -/
theorem print_inj {value value' : Json} (h : value.Readable) (h' : value'.Readable) :
    value.print = value'.print ↔ value = value' := by
  refine ⟨fun heq => ?_, congrArg print⟩
  exact Except.ok.inj ((parse_print h).symm.trans ((congrArg parse heq).trans (parse_print h')))

end PairIndex.Json
