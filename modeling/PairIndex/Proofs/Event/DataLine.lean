import PairIndex.Proofs.Event.LogText

/-! One data line and the others. A data line may carry any text, so it may not be base 64, or no event, or one that is
cut short. Whatever is wrong with it is caught at the line (`readEvents_eq`), and the calls that are open after it are
those before it (`eventsOf_dataLine`): another data line in its place changes no event of another line. The numbers of
events are those of their lines, so they count up (`pairwise_eventsFrom`). -/

namespace PairIndex

/-- A line that carries data and is neither the begin nor the end of a call. -/
def LogLine.IsData (line : String) : Prop :=
  (∃ text, line = "Program data: " ++ text) ∧ ∀ program, ¬Begins program line ∧ ¬Ends program line

theorem LogLine.IsData.exists_payload {line : String} (h : IsData line) :
    ∃ payload, ofChars line.toList = .data payload := by
  obtain ⟨⟨text, rfl⟩, hplain⟩ := h
  have hstrip : strip? "Program data: ".toList ("Program data: " ++ text).toList = some text.toList :=
    strip?_eq_some_iff.mpr String.toList_append
  rw [ofChars_eq_dataOrOther_iff.mpr hplain, dataOrOther, hstrip]
  exact ⟨_, rfl⟩

/-! ## Failures of a line -/

/-- What is wrong with the data of a line. -/
inductive DataError where
  | notBase64
  | malformed (error : DecodeError)

/-- The event that data tell, if its kind is known. -/
def decodeData (payload : List Char) (index : Nat) : Except DataError (Option Event) :=
  match Base64.decodeChars? payload with
  | none => .error .notBase64
  | some bytes => (decodePayload bytes index).mapError .malformed

/-- Reads the events that a program wrote in some lines. What is wrong with a line is caught, and the line is
skipped. -/
def readEvents (source : List Char) : Nat → CallStack → List String → Except DataError (List Event)
  | _, _, [] => return []
  | index, stack, line :: rest => do
    let kind := LogLine.ofChars line.toList
    let event? ← match stack.dataFrom? source kind with
      | none => pure none
      | some payload => tryCatch (decodeData payload index) fun _ => pure none
    return event?.toList ++ (← readEvents source (index + 1) (stack.after kind) rest)

theorem tryCatch_decodeData (payload : List Char) (index : Nat) :
    tryCatch (decodeData payload index) (fun _ => pure none) = .ok (eventOfData? payload index) := by
  rw [decodeData, eventOfData?]
  cases Base64.decodeChars? payload with
  | none => rfl
  | some bytes =>
    simp only [Option.bind_eq_bind, Option.bind_some]
    cases decodePayload bytes index <;> rfl

/-- No failure of a line gets out. -/
theorem readEvents_eq (source : List Char) (index : Nat) (stack : CallStack) (lines : List String) :
    readEvents source index stack lines = .ok (eventsFrom source index stack (lines.map String.toList)) := by
  induction lines generalizing index stack with
  | nil => rfl
  | cons line rest ih =>
    rw [readEvents, ih, List.map_cons, eventsFrom]
    cases stack.dataFrom? source (.ofChars line.toList) with
    | none => rfl
    | some payload =>
      simp only [tryCatch_decodeData]
      rfl

/-- The events that a program wrote in a transaction, with failures as they come. -/
def readLog (source : String) (lines : List String) : Except DataError (List Event) :=
  readEvents source.toList 0 [] lines

theorem readLog_eq (source : String) (lines : List String) : readLog source lines = .ok (eventsOf source lines) :=
  readEvents_eq ..

/-! ## The numbers of events -/

/-- The numbers of events count up. -/
theorem pairwise_eventsFrom (source : List Char) (index : Nat) (stack : CallStack) (lines : List (List Char)) :
    (eventsFrom source index stack lines).Pairwise (·.logIndex < ·.logIndex) := by
  induction lines generalizing index stack with
  | nil => exact .nil
  | cons line rest ih =>
    rw [eventsFrom]
    refine List.pairwise_append.mpr ⟨?_, ih _ _, fun e he later hlater => ?_⟩
    · cases (stack.dataFrom? source (.ofChars line)).bind (eventOfData? · index) with
      | none => exact .nil
      | some e => exact List.pairwise_singleton ..
    · obtain ⟨payload, -, hevent⟩ := Option.bind_eq_some_iff.mp (Option.mem_toList.mp he)
      have hindex := logIndex_of_eventOfData? hevent
      have hlater := (logIndex_of_mem_eventsFrom hlater).1
      omega

/-! ## Another data line in the place of one -/

/-- A data line leaves the calls as they are, so what comes before and after it is read as if it were not there. -/
theorem eventsOf_dataLine {line : String} (h : LogLine.IsData line) (source : String) (before after : List String) :
    ∃ event? : Option Event, (∀ e ∈ event?, e.logIndex = before.length) ∧
      eventsOf source (before ++ line :: after) = eventsOf source before ++ (event?.toList ++
        eventsFrom source.toList (before.length + 1) (openCalls before) (after.map String.toList)) := by
  obtain ⟨payload, hpayload⟩ := h.exists_payload
  refine ⟨((openCalls before).dataFrom? source.toList (.data payload)).bind (eventOfData? · before.length), ?_, ?_⟩
  · intro e he
    obtain ⟨payload', -, hevent⟩ := Option.bind_eq_some_iff.mp he
    exact logIndex_of_eventOfData? hevent
  · rw [eventsOf, eventsFrom_append, Nat.zero_add, List.map_cons, eventsFrom, hpayload]
    rfl

/-- The events of the lines other than the given one. -/
def otherEvents (i : Nat) (events : List Event) : List Event :=
  events.filter fun e => decide (e.logIndex ≠ (i : Int))

theorem otherEvents_append (i : Nat) (events later : List Event) :
    otherEvents i (events ++ later) = otherEvents i events ++ otherEvents i later :=
  List.filter_append ..

/-- The events of the lines before and after a data line do not depend on it. -/
theorem otherEvents_dataLine {line : String} (h : LogLine.IsData line) (source : String) (before after : List String) :
    otherEvents before.length (eventsOf source (before ++ line :: after)) =
      eventsOf source before ++
        eventsFrom source.toList (before.length + 1) (openCalls before) (after.map String.toList) := by
  obtain ⟨event?, hevent, heq⟩ := eventsOf_dataLine h source before after
  have hbefore : otherEvents before.length (eventsOf source before) = eventsOf source before := by
    refine List.filter_eq_self.mpr fun e he => ?_
    have hindex := (logIndex_of_mem_eventsFrom he).2
    rw [List.length_map] at hindex
    rw [decide_eq_true_eq]
    omega
  have hself : otherEvents before.length event?.toList = [] := by
    refine List.filter_eq_nil_iff.mpr fun e he => ?_
    rw [decide_eq_true_eq, ne_eq, Decidable.not_not]
    exact hevent e (Option.mem_toList.mp he)
  have hafter : otherEvents before.length
      (eventsFrom source.toList (before.length + 1) (openCalls before) (after.map String.toList)) =
        eventsFrom source.toList (before.length + 1) (openCalls before) (after.map String.toList) := by
    refine List.filter_eq_self.mpr fun e he => ?_
    have hindex := (logIndex_of_mem_eventsFrom he).1
    rw [decide_eq_true_eq]
    omega
  rw [heq, otherEvents_append, otherEvents_append, hbefore, hself, hafter, List.nil_append]

/-- Reading a log never fails, the numbers of its events count up and are those of its lines, and another data line in
the place of one changes no event but that of this line, nor their order. -/
theorem dataLine_affects_own_event (source : String) (lines : List String) :
    (∃ events, readLog source lines = .ok events ∧ events.Pairwise (·.logIndex < ·.logIndex) ∧
        ∀ e ∈ events, 0 ≤ e.logIndex ∧ e.logIndex < lines.length) ∧
      ∀ (i : Nat) (hi : i < lines.length) (line : String), LogLine.IsData lines[i] → LogLine.IsData line →
        ∃ events events', readLog source lines = .ok events ∧ readLog source (lines.set i line) = .ok events' ∧
          otherEvents i events = otherEvents i events' := by
  refine ⟨⟨_, readLog_eq source lines, pairwise_eventsFrom .., fun e he => ?_⟩, fun i hi line hold hnew => ?_⟩
  · have hindex := logIndex_of_mem_eventsFrom he
    rw [List.length_map] at hindex
    omega
  · refine ⟨_, _, readLog_eq source lines, readLog_eq source (lines.set i line), ?_⟩
    have hlength : (lines.take i).length = i := List.length_take_of_le (Nat.le_of_lt hi)
    have hlines : lines.take i ++ lines[i] :: lines.drop (i + 1) = lines := by
      rw [List.getElem_cons_drop, List.take_append_drop]
    have hset : lines.take i ++ line :: lines.drop (i + 1) = lines.set i line := by
      rw [List.set_eq_take_append_cons_drop, if_pos hi]
    have hfirst := otherEvents_dataLine hold source (lines.take i) (lines.drop (i + 1))
    have hsecond := otherEvents_dataLine hnew source (lines.take i) (lines.drop (i + 1))
    rw [hlines, hlength] at hfirst
    rw [hset, hlength] at hsecond
    rw [hfirst, hsecond]

/-- A program writes the creation of a pair three times. -/
def threeCreations : List String :=
  ["Program pair invoke [1]", creationLine, creationLine, creationLine]

/-- Text that is not base 64 in the place of the second one takes away this event and no other. -/
theorem dataLine_affects_own_event_notBase64 :
    LogLine.IsData creationLine ∧ LogLine.IsData "Program data: not base 64" ∧
      ∃ events events', readLog "pair" threeCreations = .ok events ∧
        readLog "pair" (threeCreations.set 2 "Program data: not base 64") = .ok events' ∧
        otherEvents 2 events = otherEvents 2 events' ∧ events.map (·.logIndex) = [1, 2, 3] ∧
        events'.map (·.logIndex) = [1, 3] := by
  have hcreation : LogLine.IsData creationLine :=
    ⟨⟨String.ofList ("dgAyxDf/eSs".toList ++ List.replicate 181 'A'), by decide +kernel⟩, plain_creationLine⟩
  have hmalformed : LogLine.IsData "Program data: not base 64" :=
    ⟨⟨"not base 64", by decide +kernel⟩, LogLine.ofChars_eq_dataOrOther_iff.mp (by decide +kernel)⟩
  have hindices : (eventsOf "pair" threeCreations).map (·.logIndex) = [1, 2, 3] ∧
      (eventsOf "pair" (threeCreations.set 2 "Program data: not base 64")).map (·.logIndex) = [1, 3] := by
    decide +kernel
  obtain ⟨events, events', hevents, hevents', hothers⟩ :=
    (dataLine_affects_own_event "pair" threeCreations).2 2 (by decide) _ hcreation hmalformed
  have hsame := hevents
  have hsame' := hevents'
  rw [readLog_eq, Except.ok.injEq] at hsame hsame'
  rw [hsame, hsame'] at hindices
  exact ⟨hcreation, hmalformed, events, events', hevents, hevents', hothers, hindices⟩

end PairIndex
