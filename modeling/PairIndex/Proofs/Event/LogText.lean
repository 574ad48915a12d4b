import PairIndex.Proofs.Event.Attribution

/-! What a program says. A program can put any text into the log, on a line that begins with `Program log: `. Such a line
has the form of one that names a program, the program `log:`, so that a text of the right form reads as the begin or the
end of a call of that program. The events found in a log do not depend on the line just where that call leaves no trace
(`spokenLine_moves_events_iff`): where the text is of neither form, where it is the end of a call that is not the
innermost one, or where the program that is asked for has no call open and is not `log:` itself. -/

namespace PairIndex

/-- The line on which a program says a text. -/
def spokenLine (text : String) : String :=
  "Program log: " ++ text

/-- The calls that are open after some lines. -/
def CallStack.afterAll (stack : CallStack) (lines : List String) : CallStack :=
  lines.foldl (fun stack line => stack.after (.ofChars line.toList)) stack

/-- The calls that are open at the end of a log. -/
def openCalls (lines : List String) : CallStack :=
  CallStack.afterAll [] lines

/-- The event one line further down. -/
def Event.moved (e : Event) : Event :=
  { e with logIndex := e.logIndex + 1 }

/-- The event after a line was inserted before the line of the given number. -/
def Event.movedFrom (k : Nat) (e : Event) : Event :=
  if (k : Int) ≤ e.logIndex then e.moved else e

theorem Event.moved_injective : Function.Injective Event.moved := by
  intro e e' h
  cases e
  cases e'
  simpa [Event.moved] using h

/-! ## Lines before and after one another -/

/-- The lines of a log are read one after another. -/
theorem eventsFrom_append (source : List Char) (index : Nat) (stack : CallStack) (front rest : List String) :
    eventsFrom source index stack ((front ++ rest).map String.toList) =
      eventsFrom source index stack (front.map String.toList) ++
        eventsFrom source (index + front.length) (stack.afterAll front) (rest.map String.toList) := by
  induction front generalizing index stack with
  | nil => rfl
  | cons line front ih =>
    have hindex : index + (line :: front).length = index + 1 + front.length := by
      rw [List.length_cons]
      omega
    rw [hindex, List.cons_append, List.map_cons, eventsFrom, ih, List.map_cons, eventsFrom, List.append_assoc]
    rfl

theorem decodePayload_succ (payload : Bytes) (index : Int) :
    decodePayload payload (index + 1) = (decodePayload payload index).map (Option.map Event.moved) := by
  unfold decodePayload
  split
  · rfl
  · split
    · rfl
    · next kind _ =>
      rcases (FieldReader.body kind).run ⟨0, payload.drop discriminatorSize⟩ with e | ⟨body, c⟩ <;> rfl

theorem eventOfData?_succ (payload : List Char) (index : Nat) :
    eventOfData? payload (index + 1) = (eventOfData? payload index).map Event.moved := by
  unfold eventOfData?
  cases Base64.decodeChars? payload with
  | none => rfl
  | some bytes =>
    have hdecoded : decodePayload bytes ((index + 1 : Nat) : Int) =
        (decodePayload bytes index).map (Option.map Event.moved) :=
      decodePayload_succ bytes index
    simp only [Option.bind_eq_bind, Option.bind_some, hdecoded]
    rcases decodePayload bytes index with e | event?
    · rfl
    · cases event? <;> rfl

/-- The numbers of lines only count on. -/
theorem eventsFrom_succ (source : List Char) (index : Nat) (stack : CallStack) (lines : List (List Char)) :
    eventsFrom source (index + 1) stack lines = (eventsFrom source index stack lines).map Event.moved := by
  induction lines generalizing index stack with
  | nil => rfl
  | cons line rest ih =>
    have hfirst : ((stack.dataFrom? source (.ofChars line)).bind (eventOfData? · (index + 1))).toList =
        ((stack.dataFrom? source (.ofChars line)).bind (eventOfData? · index)).toList.map Event.moved := by
      cases stack.dataFrom? source (.ofChars line) with
      | none => rfl
      | some payload =>
        rw [Option.bind_some, Option.bind_some, eventOfData?_succ]
        cases eventOfData? payload index <;> rfl
    rw [eventsFrom, eventsFrom, List.map_append, ← ih, hfirst]

theorem logIndex_of_mem_eventsFrom {source : List Char} {index : Nat} {stack : CallStack} {lines : List (List Char)}
    {e : Event} (h : e ∈ eventsFrom source index stack lines) :
    (index : Int) ≤ e.logIndex ∧ e.logIndex < index + lines.length := by
  obtain ⟨k, payload, hline, hevent⟩ := line_of_mem_eventsFrom h
  have hk : k < lines.length := by
    by_contra hout
    rw [List.getElem?_eq_none (by omega)] at hline
    cases hline
  have hindex : e.logIndex = ((index + k : Nat) : Int) := logIndex_of_eventOfData? hevent
  omega

/-- A line that carries no data only matters for what is read after it. -/
theorem eventsOf_insert {line : String} (hline : ∀ payload, LogLine.ofChars line.toList ≠ .data payload)
    (source : String) (before after : List String) :
    eventsOf source (before ++ line :: after) =
      eventsOf source before ++
        (eventsFrom source.toList before.length ((openCalls before).after (.ofChars line.toList))
          (after.map String.toList)).map Event.moved := by
  have hnone : ((openCalls before).dataFrom? source.toList (.ofChars line.toList)) = none := by
    cases hkind : LogLine.ofChars line.toList with
    | data payload => exact absurd hkind (hline payload)
    | invoke | exit | other => rfl
  rw [eventsOf, eventsFrom_append, Nat.zero_add, List.map_cons, eventsFrom, eventsFrom_succ]
  have hopen : CallStack.afterAll [] before = openCalls before := rfl
  rw [hopen, hnone]
  rfl

/-- The events of a log, once the ones of its later lines are moved down. -/
theorem map_movedFrom_eventsOf (source : String) (before after : List String) :
    (eventsOf source (before ++ after)).map (Event.movedFrom before.length) =
      eventsOf source before ++
        (eventsFrom source.toList before.length (openCalls before) (after.map String.toList)).map Event.moved := by
  have hearly : ∀ e ∈ eventsOf source before, e.movedFrom before.length = e := by
    intro e he
    have hindex := (logIndex_of_mem_eventsFrom he).2
    rw [List.length_map] at hindex
    rw [Event.movedFrom, if_neg (by omega)]
  have hlate : ∀ e ∈ eventsFrom source.toList before.length (openCalls before) (after.map String.toList),
      e.movedFrom before.length = e.moved := by
    intro e he
    rw [Event.movedFrom, if_pos (logIndex_of_mem_eventsFrom he).1]
  rw [eventsOf, eventsFrom_append, Nat.zero_add, List.map_append]
  exact congrArg₂ _ ((List.map_congr_left hearly).trans (List.map_id' _)) (List.map_congr_left hlate)

/-! ## An extra call -/

/-- Calls of other programs below those on top do not show. -/
theorem eventsFrom_append_stack {source : List Char} {below below' : CallStack} (h : source ∉ below)
    (h' : source ∉ below') (index : Nat) (above : CallStack) (lines : List (List Char)) :
    eventsFrom source index (above ++ below) lines = eventsFrom source index (above ++ below') lines := by
  induction lines generalizing index above below below' with
  | nil => rfl
  | cons line rest ih =>
    rw [eventsFrom, eventsFrom]
    cases LogLine.ofChars line with
    | invoke program => exact ih h h' (index + 1) (program :: above)
    | data payload =>
      have htop : (above ++ below).head? = some source ↔ (above ++ below').head? = some source := by
        cases above with
        | cons => rfl
        | nil =>
          have hbelow : below.head? ≠ some source := fun hhead => h (List.mem_of_mem_head? hhead)
          have hbelow' : below'.head? ≠ some source := fun hhead => h' (List.mem_of_mem_head? hhead)
          exact iff_of_false hbelow hbelow'
      simp only [CallStack.dataFrom?, CallStack.after, htop, ih h h' (index + 1) above]
    | other => exact ih h h' (index + 1) above
    | exit program =>
      cases above with
      | cons top above =>
        by_cases htop : top = program
        · simpa [CallStack.after, CallStack.dataFrom?, htop] using ih h h' (index + 1) above
        · simpa [CallStack.after, CallStack.dataFrom?, htop] using ih h h' (index + 1) (top :: above)
      | nil =>
        have hafter : ∀ {stack : CallStack}, source ∉ stack → source ∉ stack.after (.exit program) := by
          intro stack hstack
          rw [CallStack.after]
          split
          · exact fun hmem => hstack (List.mem_of_mem_tail hmem)
          · exact hstack
        exact ih (hafter h) (hafter h') (index + 1) []

/-- The line with which a call of a program ends well. -/
def exitLine (program : List Char) : String :=
  "Program " ++ String.ofList program ++ " success"

theorem ofChars_exitLine {program : List Char} (hname : LogLine.IsName (String.ofList program)) :
    LogLine.ofChars (exitLine program).toList = .exit program := by
  have hends : LogLine.Ends (String.ofList program) (exitLine program) :=
    ⟨hname, .inl ⟨"", .inl rfl, by rw [exitLine, String.append_empty]⟩⟩
  have hline := LogLine.ofChars_eq_exit_iff.mpr hends
  rwa [String.toList_ofList] at hline

/-- Programs that can stand in a line. -/
def CallStack.Named (stack : CallStack) : Prop :=
  ∀ program ∈ stack, LogLine.IsName (String.ofList program)

/-- When the calls on top have ended, the ones below them are left. -/
theorem CallStack.afterAll_exits {above : CallStack} (hnamed : above.Named) (below : CallStack) :
    CallStack.afterAll (above ++ below) (above.map exitLine) = below := by
  induction above with
  | nil => rfl
  | cons top above ih =>
    have hexit := ofChars_exitLine (hnamed top List.mem_cons_self)
    have hrest := ih fun program hprogram => hnamed program (List.mem_cons_of_mem top hprogram)
    rw [List.map_cons, afterAll, List.foldl_cons, hexit]
    simpa [after, afterAll] using hrest

/-- Each end of a call ends at most one. -/
theorem CallStack.exists_afterAll_exits_eq_drop {programs : CallStack} (hnamed : programs.Named) (stack : CallStack) :
    ∃ k ≤ programs.length, stack.afterAll (programs.map exitLine) = stack.drop k := by
  induction programs generalizing stack with
  | nil => exact ⟨0, le_rfl, rfl⟩
  | cons program programs ih =>
    have hexit := ofChars_exitLine (hnamed program List.mem_cons_self)
    obtain ⟨k, hk, hrest⟩ :=
      ih (fun p hp => hnamed p (List.mem_cons_of_mem program hp)) (stack.after (.exit program))
    rw [List.map_cons, afterAll, List.foldl_cons, hexit]
    by_cases htop : stack.head? = some program
    · refine ⟨k + 1, by simpa using hk, ?_⟩
      rw [← List.drop_tail]
      simpa [after, afterAll, htop] using hrest
    · refine ⟨k, by simp; omega, ?_⟩
      simpa [after, afterAll, htop] using hrest

theorem carriesEvent_creationLine : CarriesEvent creationLine := by
  have hfirst : (dataEvent? creationLine 0).isSome = true := by
    have hchars : creationLine.toList = "Program data: dgAyxDf/eSs".toList ++ List.replicate 181 'A' :=
      String.toList_ofList
    rw [dataEvent?, hchars]
    decide +kernel
  exact exists_dataEvent?_iff.mp (Option.isSome_iff_exists.mp hfirst)

/-- A creation at the end of a log is found if the innermost open call is one of the program. -/
theorem eventsFrom_exits_creationLine (source : List Char) (index : Nat) (stack : CallStack) {programs : CallStack}
    (hnamed : programs.Named) :
    eventsFrom source index stack ((programs.map exitLine ++ [creationLine]).map String.toList) ≠ [] ↔
      (stack.afterAll (programs.map exitLine)).head? = some source := by
  have hsilent : eventsFrom source index stack ((programs.map exitLine).map String.toList) = [] := by
    rw [List.eq_nil_iff_forall_not_mem]
    intro e he
    obtain ⟨k, payload, hline, -⟩ := line_of_mem_eventsFrom he
    simp only [List.getElem?_map, Option.map_map, Option.map_eq_some_iff] at hline
    obtain ⟨program, hprogram, hdata⟩ := hline
    have hexit := ofChars_exitLine (hnamed program (List.mem_of_getElem? hprogram))
    rw [Function.comp_apply, Function.comp_apply, hexit] at hdata
    cases hdata
  have hcarries : ∃ event, dataEvent? creationLine (index + programs.length) = some event :=
    exists_dataEvent?_iff.mpr carriesEvent_creationLine
  obtain ⟨event, hevent⟩ := hcarries
  obtain ⟨payload, hpayload, hdata⟩ := Option.bind_eq_some_iff.mp hevent
  have hline : LogLine.ofChars creationLine.toList = .data (Text.trim payload) := by
    rw [LogLine.ofChars_eq_dataOrOther_iff.mpr plain_creationLine, LogLine.dataOrOther, hpayload]
  rw [eventsFrom_append, hsilent, List.nil_append, List.length_map, List.map_singleton, eventsFrom, hline, eventsFrom,
    CallStack.dataFrom?]
  by_cases htop : (stack.afterAll (programs.map exitLine)).head? = some source
  · simp [htop, hdata]
  · simp [htop]

/-- A list begins with some copies of an element and goes on with another one. -/
theorem exists_eq_replicate_append {α : Type} (a : α) (l : List α) :
    ∃ k rest, l = List.replicate k a ++ rest ∧ rest.head? ≠ some a := by
  induction l with
  | nil => exact ⟨0, [], rfl, nofun⟩
  | cons b l ih =>
    by_cases h : b = a
    · obtain ⟨k, rest, hl, hrest⟩ := ih
      exact ⟨k + 1, rest, by rw [h, List.replicate_succ, List.cons_append, ← hl], hrest⟩
    · exact ⟨0, b :: l, rfl, by simpa using h⟩

/-- An extra call on the stack shows in no log if and only if the program that is asked for has no open call, neither
that one nor one below it. -/
theorem eventsFrom_cons_stack_iff (source : List Char) (index : Nat) {program : List Char} {stack : CallStack}
    (hnamed : CallStack.Named (program :: stack)) :
    (∀ lines : List String, eventsFrom source index (program :: stack) (lines.map String.toList) =
        eventsFrom source index stack (lines.map String.toList)) ↔
      source ≠ program ∧ source ∉ stack := by
  constructor
  · intro h
    -- Calls can be ended so that an event shows on one side only.
    have htop : ∀ programs : CallStack, programs.Named →
        ((CallStack.afterAll (program :: stack) (programs.map exitLine)).head? = some source ↔
          (CallStack.afterAll stack (programs.map exitLine)).head? = some source) := by
      intro programs hprograms
      rw [← eventsFrom_exits_creationLine source index _ hprograms, h,
        eventsFrom_exits_creationLine source index _ hprograms]
    have hne : source ≠ program := by
      rintro rfl
      obtain ⟨k, rest, hstack, hrest⟩ := exists_eq_replicate_append source stack
      have hcalls : CallStack.Named (List.replicate k source) := by
        intro p hp
        rw [List.eq_of_mem_replicate hp]
        exact hnamed source List.mem_cons_self
      have hmore : source :: stack = List.replicate k source ++ source :: rest := by
        rw [hstack, ← List.cons_append, ← List.replicate_succ, List.replicate_succ', List.append_assoc]
        rfl
      have hsame := htop _ hcalls
      rw [hmore, hstack, CallStack.afterAll_exits hcalls, CallStack.afterAll_exits hcalls] at hsame
      exact hrest (hsame.mp rfl)
    refine ⟨hne, fun hmem => ?_⟩
    obtain ⟨above, below, hstack, habove⟩ := List.eq_append_cons_of_mem hmem
    have hcalls : CallStack.Named above := by
      intro p hp
      rw [hstack] at hnamed
      exact hnamed p (List.mem_cons_of_mem _ (List.mem_append_left _ hp))
    have hsame := htop above hcalls
    -- With the extra call as many ends do not get as far as the call of the program.
    obtain ⟨k, hk, hdrop⟩ := CallStack.exists_afterAll_exits_eq_drop hcalls (program :: stack)
    rw [hdrop, hstack, CallStack.afterAll_exits hcalls] at hsame
    have hhead := hsame.mpr rfl
    rw [List.head?_drop, ← List.cons_append, List.getElem?_append_left (by simp; omega)] at hhead
    rcases List.mem_cons.mp (List.mem_of_getElem? hhead) with hprogram | hearlier
    · exact hne hprogram
    · exact habove hearlier
  · rintro ⟨hne, hmem⟩ lines
    have hcons : source ∉ program :: stack := List.not_mem_cons_of_ne_of_not_mem hne hmem
    exact eventsFrom_append_stack hcons hmem index [] _

/-! ## What is said -/

theorem CallStack.Named.after {stack : CallStack} (h : stack.Named) (line : String) :
    CallStack.Named (stack.after (.ofChars line.toList)) := by
  cases hline : LogLine.ofChars line.toList with
  | invoke program =>
    intro p hp
    rcases List.mem_cons.mp hp with rfl | hmem
    · rw [← @String.toList_ofList p] at hline
      exact (LogLine.ofChars_eq_invoke_iff.mp hline).1
    · exact h p hmem
  | exit program =>
    rw [CallStack.after]
    split
    · exact fun p hp => h p (List.mem_of_mem_tail hp)
    · exact h
  | data | other => exact h

theorem named_openCalls (lines : List String) : (openCalls lines).Named := by
  have hall : ∀ stack : CallStack, stack.Named → (stack.afterAll lines).Named := by
    induction lines with
    | nil => exact fun _ h => h
    | cons line rest ih => exact fun stack h => ih _ (h.after line)
  exact hall [] nofun

theorem programName?_spokenLine (text : String) :
    LogLine.programName? (spokenLine text).toList = some ("log:".toList, ' ' :: text.toList) := by
  have hline : spokenLine text = "Program " ++ "log:" ++ String.ofList (' ' :: text.toList) := by
    rw [← String.toList_inj]
    simp [spokenLine, String.toList_append]
  have hname : LogLine.IsName "log:" := by decide +kernel
  refine LogLine.programName?_toList_iff.mpr ⟨hline, hname, ?_⟩
  intro c hc
  cases hc
  decide

theorem strip?_spokenLine (text : String) :
    LogLine.strip? "Program data: ".toList (spokenLine text).toList = none := by
  rw [Option.eq_none_iff_forall_not_mem]
  intro payload hpayload
  have hchars := LogLine.strip?_eq_some_iff.mp hpayload
  rw [spokenLine, String.toList_append] at hchars
  have hsame : "Program log: ".toList.take 9 = "Program data: ".toList.take 9 := by
    have htake := congrArg (List.take 9) hchars
    rwa [List.take_append_of_le_length (by decide), List.take_append_of_le_length (by decide)] at htake
  exact absurd hsame (by decide)

/-- What is said reads as the begin of a call of `log:`, as the end of one, or as nothing. -/
theorem spokenLine_cases (text : String) :
    (LogLine.Begins "log:" (spokenLine text) ∧ LogLine.ofChars (spokenLine text).toList = .invoke "log:".toList) ∨
      ¬LogLine.Begins "log:" (spokenLine text) ∧
        (LogLine.Ends "log:" (spokenLine text) ∧ LogLine.ofChars (spokenLine text).toList = .exit "log:".toList ∨
          ¬LogLine.Ends "log:" (spokenLine text) ∧ LogLine.ofChars (spokenLine text).toList = .other) := by
  rw [← LogLine.ofChars_eq_invoke_iff, ← LogLine.ofChars_eq_exit_iff,
    LogLine.ofChars_of_programName? (programName?_spokenLine text), LogLine.dataOrOther, strip?_spokenLine]
  cases LogLine.isInvokeTail (' ' :: text.toList) <;> cases LogLine.isExitTail (' ' :: text.toList) <;> simp

/-- A text that a program says moves the events of the later lines down by one line, and has no other effect whatever
these lines are, if and only if it does not touch a stack with the program that is asked for: that program is neither
`log:` nor has it a call open, or the text is no begin of a call and no end of the innermost one. -/
theorem spokenLine_moves_events_iff (source : String) (before : List String) (text : String) :
    (∀ after, eventsOf source (before ++ spokenLine text :: after) =
        (eventsOf source (before ++ after)).map (Event.movedFrom before.length)) ↔
      (source ≠ "log:" ∧ source.toList ∉ openCalls before) ∨
        ¬LogLine.Begins "log:" (spokenLine text) ∧
          (LogLine.Ends "log:" (spokenLine text) → (openCalls before).head? ≠ some "log:".toList) := by
  have hsource : source ≠ "log:" ↔ source.toList ≠ "log:".toList := not_congr String.toList_inj.symm
  have hnamed := named_openCalls before
  have hline : ∀ payload, LogLine.ofChars (spokenLine text).toList ≠ .data payload := by
    intro payload
    rcases spokenLine_cases text with ⟨-, h⟩ | ⟨-, ⟨-, h⟩ | ⟨-, h⟩⟩ <;> rw [h] <;> nofun
  -- Only the stack with which the later lines are read matters.
  have hstack : (∀ after, eventsOf source (before ++ spokenLine text :: after) =
        (eventsOf source (before ++ after)).map (Event.movedFrom before.length)) ↔
      ∀ after : List String,
        eventsFrom source.toList before.length ((openCalls before).after (.ofChars (spokenLine text).toList))
            (after.map String.toList) =
          eventsFrom source.toList before.length (openCalls before) (after.map String.toList) := by
    refine forall_congr' fun after => ?_
    rw [eventsOf_insert hline, map_movedFrom_eventsOf, List.append_cancel_left_eq,
      List.map_inj_right (fun _ _ h => Event.moved_injective h)]
  have hname : LogLine.IsName (String.ofList "log:".toList) := by decide +kernel
  have hcases := spokenLine_cases text
  rw [hstack, hsource]
  generalize openCalls before = stack at hnamed ⊢
  generalize "log:".toList = speaker at hname hcases ⊢
  rcases hcases with ⟨hbegins, hkind⟩ | ⟨hbegins, ⟨hends, hkind⟩ | ⟨hends, hkind⟩⟩
  · have hcons : CallStack.Named (speaker :: stack) := List.forall_mem_cons.mpr ⟨hname, hnamed⟩
    have hmore := eventsFrom_cons_stack_iff source.toList before.length hcons
    simpa [hkind, CallStack.after, hbegins] using hmore
  · by_cases htop : stack.head? = some speaker
    · obtain ⟨rest, rfl⟩ := List.head?_eq_some_iff.mp htop
      have hmore := eventsFrom_cons_stack_iff source.toList before.length hnamed
      simpa [hkind, CallStack.after, hbegins, hends, eq_comm] using hmore
    · simp [hkind, CallStack.after, hbegins, htop]
  · simp [hkind, CallStack.after, hbegins, hends]

/-- Inside a call of a program something is said that reads as the begin of another call, and an event that the program
writes after it is lost. -/
theorem spoken_begin_hides_event :
    ¬∀ (source : String) (before after : List String) (text : String),
      eventsOf source (before ++ spokenLine text :: after) =
        (eventsOf source (before ++ after)).map (Event.movedFrom before.length) := by
  intro h
  have hlost := h "pair" ["Program pair invoke [1]"] [creationLine] "invoke [2]"
  exact absurd hlost (by decide +kernel)

end PairIndex
