import Mathlib.Data.List.TakeDrop
import Mathlib.Data.List.TakeWhile
import PairIndex.Event.Log

/-! The forms of log lines. What a line says of the calls of programs is told by two patterns, that of a line with which
a call begins (`LogLine.Begins`) and that of a line with which one ends (`LogLine.Ends`); reading a line recognises just
these (`LogLine.ofChars_eq_invoke_iff`, `LogLine.ofChars_eq_exit_iff`). -/

namespace PairIndex

/-- A list is cut in two where a property ends if and only if the first part has it and the second does not begin
with it. -/
theorem span_eq_iff {α : Type} {p : α → Bool} {l front rest : List α} :
    l.span p = (front, rest) ↔
      l = front ++ rest ∧ (∀ a ∈ front, p a = true) ∧ ∀ a, rest.head? = some a → p a = false := by
  rw [List.span_eq_takeWhile_dropWhile, Prod.mk.injEq]
  constructor
  · rintro ⟨rfl, rfl⟩
    refine ⟨List.takeWhile_append_dropWhile.symm, fun a ha => List.mem_takeWhile_imp ha, fun a ha => ?_⟩
    have hstop := List.head?_dropWhile_not p l
    rwa [ha] at hstop
  · rintro ⟨rfl, hfront, hrest⟩
    rw [List.takeWhile_append_of_pos hfront, List.dropWhile_append_of_pos hfront]
    cases rest with
    | nil => simp
    | cons a rest => simp [hrest a rfl]

namespace LogLine

/-! ## Patterns -/

/-- A text that can name a program in a line. -/
def IsName (name : String) : Prop :=
  name ≠ "" ∧ ∀ c ∈ name.toList, Text.isBlank c = false

def IsNumeral (digits : String) : Prop :=
  digits ≠ "" ∧ ∀ c ∈ digits.toList, Text.isDigit c = true

instance (name : String) : Decidable (IsName name) :=
  decidable_of_iff (name ≠ "" ∧ name.toList.all (fun c => !Text.isBlank c) = true) (by simp [IsName])

instance (digits : String) : Decidable (IsNumeral digits) :=
  decidable_of_iff (digits ≠ "" ∧ digits.toList.all Text.isDigit = true) (by simp [IsNumeral])

/-- What may come after the last word of a line. -/
def IsEnding (ending : String) : Prop :=
  ending = "" ∨ ending = "\n"

/-- What may come after the word `failed`. -/
def IsReason (reason : String) : Prop :=
  (∀ c, reason.toList.head? = some c → Text.isWord c = false) ∧
    ∃ text ending, reason = text ++ ending ∧ '\n' ∉ text.toList ∧ IsEnding ending

/-- A line with which a call of a program begins. -/
def Begins (program text : String) : Prop :=
  IsName program ∧ ∃ depth ending, IsNumeral depth ∧ IsEnding ending ∧
    text = "Program " ++ program ++ " invoke [" ++ depth ++ "]" ++ ending

/-- A line with which a call of a program ends. -/
def Ends (program text : String) : Prop :=
  IsName program ∧
    ((∃ ending, IsEnding ending ∧ text = "Program " ++ program ++ " success" ++ ending) ∨
      ∃ reason, IsReason reason ∧ text = "Program " ++ program ++ " failed" ++ reason)

/-! ## Parts of a line -/

theorem strip?_eq_some_iff {start chars rest : List Char} : strip? start chars = some rest ↔ chars = start ++ rest := by
  rw [strip?, Option.ite_none_right_eq_some, List.isPrefixOf_iff_prefix]
  constructor
  · rintro ⟨⟨found, rfl⟩, h⟩
    rw [List.drop_left, Option.some.injEq] at h
    rw [h]
  · rintro rfl
    exact ⟨List.prefix_append _ _, by rw [List.drop_left]⟩

theorem isLineEnd_toList_iff {ending : String} : isLineEnd ending.toList = true ↔ IsEnding ending := by
  have hbreak : ending.toList = ['\n'] ↔ ending = "\n" := by
    rw [← String.toList_inj]
    rfl
  rw [isLineEnd, IsEnding, Bool.or_eq_true, beq_iff_eq, beq_iff_eq, String.toList_eq_nil_iff, hbreak]

theorem programName?_eq_some_iff {chars name after : List Char} :
    programName? chars = some (name, after) ↔
      chars = "Program ".toList ++ name ++ after ∧ IsName (String.ofList name) ∧
        ∀ c, after.head? = some c → Text.isBlank c = true := by
  have hname : IsName (String.ofList name) ↔ name ≠ [] ∧ ∀ c ∈ name, (!Text.isBlank c) = true := by
    rw [IsName, ne_eq, ← String.toList_eq_nil_iff, String.toList_ofList]
    simp
  rw [hname, programName?]
  cases hrest : strip? "Program ".toList chars with
  | none =>
    refine iff_of_false nofun ?_
    rintro ⟨rfl, -⟩
    rw [List.append_assoc, strip?_eq_some_iff.mpr rfl] at hrest
    cases hrest
  | some rest =>
    rw [strip?_eq_some_iff] at hrest
    subst hrest
    rw [List.append_assoc, List.append_cancel_left_eq]
    rcases hspan : rest.span (fun c => !Text.isBlank c) with ⟨front, back⟩
    obtain ⟨rfl, hfront, hback⟩ := span_eq_iff.mp hspan
    simp only [Option.bind_eq_bind, Option.bind_some, hspan]
    constructor
    · intro h
      cases hempty : front.isEmpty with
      | true => simp [hempty] at h
      | false =>
        simp only [hempty, Bool.false_eq_true, if_false] at h
        cases h
        exact ⟨rfl, ⟨by simpa using hempty, hfront⟩, by simpa using hback⟩
    · rintro ⟨heq, ⟨hne, hall⟩, hstop⟩
      have hsame := span_eq_iff.mpr ⟨heq, hall, fun c hc => by simp [hstop c hc]⟩
      rw [hspan] at hsame
      cases hsame
      simp [hne]

theorem isInvokeTail_iff {chars : List Char} :
    isInvokeTail chars = true ↔ ∃ depth ending, IsNumeral depth ∧ IsEnding ending ∧
      chars = (" invoke [" ++ depth ++ "]" ++ ending).toList := by
  simp only [String.toList_append, List.append_assoc]
  rw [isInvokeTail]
  cases hrest : strip? " invoke [".toList chars with
  | none =>
    refine iff_of_false nofun ?_
    rintro ⟨depth, ending, -, -, rfl⟩
    rw [strip?_eq_some_iff.mpr rfl] at hrest
    cases hrest
  | some rest =>
    rw [strip?_eq_some_iff] at hrest
    subst hrest
    simp only [List.append_cancel_left_eq]
    rcases hspan : rest.span Text.isDigit with ⟨digits, after⟩
    obtain ⟨rfl, hdigits, hafter⟩ := span_eq_iff.mp hspan
    constructor
    · intro h
      simp only at h
      split at h
      · next ending =>
        simp only [Bool.and_eq_true, Bool.not_eq_true', List.isEmpty_eq_false_iff] at h
        refine ⟨String.ofList digits, String.ofList ending, ⟨?_, ?_⟩, ?_, ?_⟩
        · rw [ne_eq, ← String.toList_eq_nil_iff, String.toList_ofList]
          exact h.1
        · rwa [String.toList_ofList]
        · rw [← isLineEnd_toList_iff, String.toList_ofList]
          exact h.2
        · simp [String.toList_ofList]
      · cases h
    · rintro ⟨depth, ending, ⟨hne, hall⟩, hending, heq⟩
      -- The bracket is no digit, so that the digits end there.
      have hsame := span_eq_iff.mpr ⟨heq, hall, fun c hc => by cases hc; decide⟩
      rw [hspan] at hsame
      cases hsame
      rw [← isLineEnd_toList_iff] at hending
      rw [ne_eq, ← String.toList_eq_nil_iff] at hne
      simpa [hne] using hending

theorem isFailureReason_toList_iff {reason : String} : isFailureReason reason.toList = true ↔ IsReason reason := by
  rw [isFailureReason, IsReason, Bool.and_eq_true, Bool.not_eq_true', Option.any_eq_false]
  refine and_congr (by simp) ?_
  constructor
  · intro h
    refine ⟨String.ofList (reason.toList.takeWhile (· != '\n')), String.ofList (reason.toList.dropWhile (· != '\n')),
      ?_, ?_, ?_⟩
    · rw [← String.toList_inj, String.toList_append, String.toList_ofList, String.toList_ofList,
        List.takeWhile_append_dropWhile]
    · rw [String.toList_ofList]
      intro hmem
      simpa using List.mem_takeWhile_imp hmem
    · rwa [← isLineEnd_toList_iff, String.toList_ofList]
  · rintro ⟨text, ending, rfl, htext, hending⟩
    have hline : ∀ c ∈ text.toList, (c != '\n') = true := fun c hc => by
      rw [bne_iff_ne]
      rintro rfl
      exact htext hc
    rw [String.toList_append, List.dropWhile_append_of_pos hline]
    rcases hending with rfl | rfl <;> rfl

theorem isExitTail_iff {chars : List Char} :
    isExitTail chars = true ↔ (∃ ending, IsEnding ending ∧ chars = (" success" ++ ending).toList) ∨
      ∃ reason, IsReason reason ∧ chars = (" failed" ++ reason).toList := by
  rw [isExitTail, Bool.or_eq_true]
  simp only [Option.any_eq_true, strip?_eq_some_iff, String.toList_append]
  refine or_congr ?_ ?_
  · constructor
    · rintro ⟨rest, rfl, h⟩
      refine ⟨String.ofList rest, ?_, by simp⟩
      rwa [← isLineEnd_toList_iff, String.toList_ofList]
    · rintro ⟨ending, h, rfl⟩
      exact ⟨ending.toList, rfl, isLineEnd_toList_iff.mpr h⟩
  · constructor
    · rintro ⟨rest, rfl, h⟩
      refine ⟨String.ofList rest, ?_, by simp⟩
      rwa [← isFailureReason_toList_iff, String.toList_ofList]
    · rintro ⟨reason, h, rfl⟩
      exact ⟨reason.toList, rfl, isFailureReason_toList_iff.mpr h⟩

/-! ## Lines -/

theorem isInvokeTail_eq_false {after : List Char} (h : isExitTail after = true) : isInvokeTail after = false := by
  rw [← Bool.not_eq_true, isInvokeTail_iff]
  rintro ⟨depth, ending, -, -, rfl⟩
  -- After its space the one text begins with `i`, the other one with `s` or `f`.
  rcases isExitTail_iff.mp h with ⟨_, -, hsame⟩ | ⟨_, -, hsame⟩
  · simp [String.toList_append] at hsame
  · simp [String.toList_append] at hsame

/-- A line that is no begin and no end of a call is data or nothing. -/
theorem dataOrOther_cases (chars : List Char) :
    (∃ payload, dataOrOther chars = .data payload) ∨ dataOrOther chars = .other := by
  rw [dataOrOther]
  cases strip? "Program data: ".toList chars with
  | some payload => exact .inl ⟨_, rfl⟩
  | none => exact .inr rfl

/-- The cases of a line that names a program. -/
theorem ofChars_of_programName? {chars name after : List Char} (h : programName? chars = some (name, after)) :
    ofChars chars =
      if isInvokeTail after then .invoke name else if isExitTail after then .exit name else dataOrOther chars := by
  rw [ofChars, h]

theorem ofChars_of_programName?_none {chars : List Char} (h : programName? chars = none) :
    ofChars chars = dataOrOther chars := by
  rw [ofChars, h]

theorem eq_invoke_iff {chars program : List Char} :
    ofChars chars = .invoke program ↔
      ∃ after, programName? chars = some (program, after) ∧ isInvokeTail after = true := by
  rcases hnamed : programName? chars with _ | ⟨name, after⟩
  · rw [ofChars_of_programName?_none hnamed]
    rcases dataOrOther_cases chars with ⟨payload, h⟩ | h <;> simp [h]
  · rw [ofChars_of_programName? hnamed]
    cases hinvoke : isInvokeTail after with
    | true => simp [hinvoke]
    | false =>
      rcases dataOrOther_cases chars with ⟨payload, h⟩ | h <;> cases isExitTail after <;> simp [h, hinvoke]

theorem eq_exit_iff {chars program : List Char} :
    ofChars chars = .exit program ↔ ∃ after, programName? chars = some (program, after) ∧ isExitTail after = true := by
  rcases hnamed : programName? chars with _ | ⟨name, after⟩
  · rw [ofChars_of_programName?_none hnamed]
    rcases dataOrOther_cases chars with ⟨payload, h⟩ | h <;> simp [h]
  · rw [ofChars_of_programName? hnamed]
    cases hexit : isExitTail after with
    | true => simp [isInvokeTail_eq_false hexit, hexit]
    | false =>
      rcases dataOrOther_cases chars with ⟨payload, h⟩ | h <;> cases isInvokeTail after <;> simp [h, hexit]

theorem ofChars_cases (chars : List Char) :
    (∃ program, ofChars chars = .invoke program) ∨ (∃ program, ofChars chars = .exit program) ∨
      ofChars chars = dataOrOther chars := by
  rcases hnamed : programName? chars with _ | ⟨name, after⟩
  · exact .inr (.inr (ofChars_of_programName?_none hnamed))
  · rw [ofChars_of_programName? hnamed]
    cases isInvokeTail after with
    | true => exact .inl ⟨name, rfl⟩
    | false =>
      cases isExitTail after with
      | true => exact .inr (.inl ⟨name, rfl⟩)
      | false => exact .inr (.inr rfl)

/-- The program that a line names, given what stands behind its name. -/
theorem programName?_toList_iff {program text : String} {after : List Char} :
    programName? text.toList = some (program.toList, after) ↔
      text = "Program " ++ program ++ String.ofList after ∧ IsName program ∧
        ∀ c, after.head? = some c → Text.isBlank c = true := by
  rw [programName?_eq_some_iff, String.ofList_toList, ← String.toList_inj]
  simp [String.toList_append]

theorem ofChars_eq_invoke_iff {program text : String} :
    ofChars text.toList = .invoke program.toList ↔ Begins program text := by
  rw [eq_invoke_iff]
  constructor
  · rintro ⟨after, hnamed, htail⟩
    obtain ⟨htext, hname, -⟩ := programName?_toList_iff.mp hnamed
    obtain ⟨depth, ending, hdepth, hending, rfl⟩ := isInvokeTail_iff.mp htail
    exact ⟨hname, depth, ending, hdepth, hending, by rw [htext, String.ofList_toList]; simp only [String.append_assoc]⟩
  · rintro ⟨hname, depth, ending, hdepth, hending, rfl⟩
    refine ⟨(" invoke [" ++ depth ++ "]" ++ ending).toList,
      programName?_toList_iff.mpr ⟨by simp only [String.ofList_toList, String.append_assoc], hname, fun c hc => ?_⟩,
      isInvokeTail_iff.mpr ⟨depth, ending, hdepth, hending, rfl⟩⟩
    simp only [String.toList_append] at hc
    cases hc
    decide

theorem ofChars_eq_exit_iff {program text : String} :
    ofChars text.toList = .exit program.toList ↔ Ends program text := by
  rw [eq_exit_iff]
  constructor
  · rintro ⟨after, hnamed, htail⟩
    obtain ⟨htext, hname, -⟩ := programName?_toList_iff.mp hnamed
    rcases isExitTail_iff.mp htail with ⟨ending, hending, rfl⟩ | ⟨reason, hreason, rfl⟩
    · exact ⟨hname, .inl ⟨ending, hending, by rw [htext, String.ofList_toList]; simp only [String.append_assoc]⟩⟩
    · exact ⟨hname, .inr ⟨reason, hreason, by rw [htext, String.ofList_toList]; simp only [String.append_assoc]⟩⟩
  · rintro ⟨hname, ⟨ending, hending, rfl⟩ | ⟨reason, hreason, rfl⟩⟩
    · refine ⟨(" success" ++ ending).toList,
        programName?_toList_iff.mpr ⟨by simp only [String.ofList_toList, String.append_assoc], hname, fun c hc => ?_⟩,
        isExitTail_iff.mpr (.inl ⟨ending, hending, rfl⟩)⟩
      simp only [String.toList_append] at hc
      cases hc
      decide
    · refine ⟨(" failed" ++ reason).toList,
        programName?_toList_iff.mpr ⟨by simp only [String.ofList_toList, String.append_assoc], hname, fun c hc => ?_⟩,
        isExitTail_iff.mpr (.inr ⟨reason, hreason, rfl⟩)⟩
      simp only [String.toList_append] at hc
      cases hc
      decide

/-- A line with which no call begins or ends can only be data. -/
theorem ofChars_eq_dataOrOther_iff {text : String} :
    ofChars text.toList = dataOrOther text.toList ↔ ∀ program, ¬Begins program text ∧ ¬Ends program text := by
  constructor
  · intro h program
    rw [← ofChars_eq_invoke_iff, ← ofChars_eq_exit_iff, h]
    rcases dataOrOther_cases text.toList with ⟨payload, hdata⟩ | hdata <;> simp [hdata]
  · intro h
    rcases ofChars_cases text.toList with ⟨program, hbegins⟩ | ⟨program, hends⟩ | hother
    · rw [← @String.toList_ofList program] at hbegins
      exact absurd (ofChars_eq_invoke_iff.mp hbegins) (h _).1
    · rw [← @String.toList_ofList program] at hends
      exact absurd (ofChars_eq_exit_iff.mp hends) (h _).2
    · exact hother

end LogLine
end PairIndex
