import PairIndex.Proofs.Event.Layout
import PairIndex.Proofs.Event.Line
import PairIndex.Proofs.Event.Log

/-! Who wrote a line of a log. The log of a transaction lists calls of programs that contain one another
(`CallForest`), and a line belongs to the innermost call around it. Reading the log with a stack finds the events of
just those data lines that belong to a call of the program (`CallForest.events_of_innermost_calls`), however deep the
calls are, whichever of them fail and wherever the log is cut off. -/

namespace PairIndex

/-- How a call ends. A failure may give its reason, after a character that is no part of the word. -/
inductive CallEnd where
  | success
  | failure (reason : Option (Char × String))

/-- What the programs of a transaction do one after another. -/
inductive CallForest where
  | nil
  /-- A line is written. -/
  | line (text : String) (rest : CallForest)
  /-- A program is called. -/
  | call (program depth : String) (inner : CallForest) (ending : CallEnd) (rest : CallForest)

/-- A line of a log with the program that wrote it, if a program did. -/
structure LogEntry where
  text : String
  writer : Option String

def CallEnd.text : CallEnd → String
  | success => " success"
  | failure none => " failed"
  | failure (some (mark, reason)) => " failed" ++ (String.singleton mark ++ reason)

/-- The reason of a failure stays on the line. -/
def CallEnd.WellFormed : CallEnd → Prop
  | success | failure none => True
  | failure (some (mark, reason)) => Text.isWord mark = false ∧ '\n' ∉ reason.toList

/-- A failure whose reason begins on a line of its own has none there. -/
def CallEnd.OnOneLine : CallEnd → Prop
  | success | failure none => True
  | failure (some (mark, reason)) => mark = '\n' → reason = ""

namespace CallForest

/-- Programs have names, depths are numbers, and the lines that are written are not mistaken for a call's begin or
end. -/
def WellFormed : CallForest → Prop
  | nil => True
  | line text rest => (∀ program, ¬LogLine.Begins program text ∧ ¬LogLine.Ends program text) ∧ rest.WellFormed
  | call program depth inner ending rest =>
    LogLine.IsName program ∧ LogLine.IsNumeral depth ∧ ending.WellFormed ∧ inner.WellFormed ∧ rest.WellFormed

def OnOneLine : CallForest → Prop
  | nil => True
  | line _ rest => rest.OnOneLine
  | call _ _ inner ending rest => ending.OnOneLine ∧ inner.OnOneLine ∧ rest.OnOneLine

/-- The log, given the innermost call around it. No program wrote the lines that tell of a call. -/
def entries (caller : Option String) : CallForest → List LogEntry
  | nil => []
  | line text rest => ⟨text, caller⟩ :: rest.entries caller
  | call program depth inner ending rest =>
    ⟨"Program " ++ program ++ " invoke [" ++ depth ++ "]", none⟩ ::
      (inner.entries (some program) ++ ⟨"Program " ++ program ++ ending.text, none⟩ :: rest.entries caller)

/-- The log of a transaction. -/
def lines (forest : CallForest) : List String :=
  (forest.entries none).map LogEntry.text

end CallForest

/-! ## Events of entries -/

/-- The event that a data line carries. -/
def dataEvent? (text : String) (index : Nat) : Option Event :=
  (LogLine.strip? "Program data: ".toList text.toList).bind fun payload => eventOfData? (Text.trim payload) index

/-- A line carries data of a known kind and of sufficient length. -/
def CarriesEvent (text : String) : Prop :=
  ∃ payload bytes kind, text = "Program data: " ++ payload ∧ Base64.decodeChars? (Text.trim payload.toList) = some bytes ∧
    EventKind.ofDiscriminator? (bytes.take discriminatorSize) = some kind ∧
    discriminatorSize + kind.fieldsSize ≤ bytes.length

/-- The event that an entry holds if it is a line of the given program. -/
def LogEntry.event? (source : String) (entry : LogEntry) (index : Nat) : Option Event :=
  if entry.writer = some source then dataEvent? entry.text index else none

theorem exists_eventOfData?_iff {payload : List Char} {index : Nat} :
    (∃ event, eventOfData? payload index = some event) ↔
      ∃ bytes, Base64.decodeChars? payload = some bytes ∧
        ∃ event, decodePayload bytes index = .ok (some event) := by
  rw [eventOfData?]
  cases Base64.decodeChars? payload with
  | none => simp
  | some bytes =>
    rcases hdecoded : decodePayload bytes index with failure | event?
    · simp [hdecoded, Except.toOption]
    · simp [hdecoded, Except.toOption]

theorem exists_dataEvent?_iff {text : String} {index : Nat} :
    (∃ event, dataEvent? text index = some event) ↔ CarriesEvent text := by
  constructor
  · rintro ⟨event, hevent⟩
    obtain ⟨payload, hpayload, hdata⟩ := Option.bind_eq_some_iff.mp hevent
    obtain ⟨bytes, hbytes, hdecoded⟩ := exists_eventOfData?_iff.mp ⟨event, hdata⟩
    obtain ⟨kind, hkind, hsize⟩ := exists_decodePayload_iff.mp hdecoded
    refine ⟨String.ofList payload, bytes, kind, ?_, by rwa [String.toList_ofList], hkind, hsize⟩
    rw [← String.toList_inj, LogLine.strip?_eq_some_iff.mp hpayload]
    simp
  · rintro ⟨payload, bytes, kind, rfl, hbytes, hkind, hsize⟩
    have hstrip : LogLine.strip? "Program data: ".toList ("Program data: " ++ payload).toList = some payload.toList :=
      LogLine.strip?_eq_some_iff.mpr String.toList_append
    rw [dataEvent?, hstrip]
    exact exists_eventOfData?_iff.mpr ⟨bytes, hbytes, exists_decodePayload_iff.mpr ⟨kind, hkind, hsize⟩⟩

theorem logIndex_of_dataEvent? {text : String} {index : Nat} {event : Event} (h : dataEvent? text index = some event) :
    event.logIndex = index := by
  obtain ⟨payload, -, hevent⟩ := Option.bind_eq_some_iff.mp h
  exact logIndex_of_eventOfData? hevent

/-- A data line with a pair's creation in which every field is zero. -/
def creationLine : String :=
  String.ofList ("Program data: dgAyxDf/eSs".toList ++ List.replicate 181 'A')

theorem plain_creationLine (program : String) :
    ¬LogLine.Begins program creationLine ∧ ¬LogLine.Ends program creationLine := by
  have hchars : creationLine.toList = "Program data: dgAyxDf/eSs".toList ++ List.replicate 181 'A' :=
    String.toList_ofList
  refine LogLine.ofChars_eq_dataOrOther_iff.mp ?_ program
  rw [hchars]
  decide +kernel

/-! ## Reading with a stack -/

/-- Reading lines with a stack finds the events of the entries, however many of them there are. -/
def CallStack.Reads (stack : CallStack) (entries : List LogEntry) : Prop :=
  ∀ source k index, eventsFrom source.toList index stack ((entries.take k).map fun entry => entry.text.toList) =
    ((entries.take k).zipIdx index).filterMap fun (entry, index) => entry.event? source index

namespace CallStack.Reads

variable {stack : CallStack} {entries : List LogEntry} {program text : String}

theorem nil : Reads stack [] := by
  intro source k index
  simp [eventsFrom]

/-- It is enough to see the event of the first entry and to read on with the stack after it. -/
theorem cons {entry : LogEntry}
    (hevent : ∀ source index, (stack.dataFrom? source.toList (.ofChars entry.text.toList)).bind (eventOfData? · index) =
      entry.event? source index)
    (hrest : Reads (stack.after (.ofChars entry.text.toList)) entries) : Reads stack (entry :: entries) := by
  intro source k index
  cases k with
  | zero => simp [eventsFrom]
  | succ k =>
    simp only [List.take_succ_cons, List.map_cons, eventsFrom, hevent, hrest source k (index + 1), List.zipIdx_cons,
      List.filterMap_cons]
    cases entry.event? source index <;> rfl

theorem begins (hbegins : LogLine.Begins program text) (hrest : Reads (program.toList :: stack) entries) :
    Reads stack (⟨text, none⟩ :: entries) := by
  have hline := LogLine.ofChars_eq_invoke_iff.mpr hbegins
  refine cons (fun source index => ?_) ?_
  · rw [hline]
    rfl
  · rwa [hline]

theorem ends (hends : LogLine.Ends program text) (hrest : Reads stack entries) :
    Reads (program.toList :: stack) (⟨text, none⟩ :: entries) := by
  have hline := LogLine.ofChars_eq_exit_iff.mpr hends
  refine cons (fun source index => ?_) ?_
  · rw [hline]
    rfl
  · rw [hline]
    simpa [CallStack.after] using hrest

/-- A written line leaves the stack alone and belongs to the program on top of it. -/
theorem line {caller : Option String} (htext : ∀ program, ¬LogLine.Begins program text ∧ ¬LogLine.Ends program text)
    (htop : stack.head? = caller.map String.toList) (hrest : Reads stack entries) :
    Reads stack (⟨text, caller⟩ :: entries) := by
  have hline := LogLine.ofChars_eq_dataOrOther_iff.mpr htext
  have hwriter : ∀ source : String, stack.head? = some source.toList ↔ caller = some source := fun source => by
    rw [htop]
    cases caller <;> simp [String.toList_inj]
  refine cons (fun source index => ?_) ?_
  · rw [hline, LogEntry.event?, dataEvent?, LogLine.dataOrOther]
    cases hpayload : LogLine.strip? "Program data: ".toList text.toList with
    | none => simp [CallStack.dataFrom?]
    | some payload => by_cases h : caller = some source <;> simp [CallStack.dataFrom?, hwriter, h]
  · rw [hline]
    rcases LogLine.dataOrOther_cases text.toList with ⟨payload, h⟩ | h <;> rwa [h]

end CallStack.Reads

theorem CallEnd.ends_text {program : String} (ending : CallEnd) (hname : LogLine.IsName program)
    (hending : ending.WellFormed) (hline : ending.OnOneLine) :
    LogLine.Ends program ("Program " ++ program ++ ending.text) := by
  refine ⟨hname, ?_⟩
  match ending, hending, hline with
  | .success, _, _ => exact .inl ⟨"", .inl rfl, by simp [text]⟩
  | .failure none, _, _ => exact .inr ⟨"", ⟨nofun, "", "", rfl, by simp, .inl rfl⟩, by simp [text]⟩
  | .failure (some (mark, reason)), ⟨hmark, hreason⟩, hline =>
    refine .inr ⟨String.singleton mark ++ reason, ⟨fun c hc => ?_, ?_⟩, by simp only [text, String.append_assoc]⟩
    · simp only [String.toList_append, String.toList_singleton] at hc
      cases hc
      exact hmark
    · -- The mark may be the line break that ends the line.
      by_cases hbreak : mark = '\n'
      · exact ⟨"", "\n", by rw [hline hbreak, hbreak]; rfl, by simp, .inr rfl⟩
      · exact ⟨String.singleton mark ++ reason, "", by simp, by simp [hreason, Ne.symm hbreak], .inl rfl⟩

namespace CallForest

/-- Reading goes on behind a forest with the stack before it: each call that the forest begins it also ends. -/
theorem reads_entries {forest : CallForest} (hforest : forest.WellFormed) (hline : forest.OnOneLine)
    {stack : CallStack} {caller : Option String} (htop : stack.head? = caller.map String.toList)
    {behind : List LogEntry} (hbehind : stack.Reads behind) : stack.Reads (forest.entries caller ++ behind) := by
  induction forest generalizing stack caller behind with
  | nil => exact hbehind
  | line text rest ih => exact .line hforest.1 htop (ih hforest.2 hline htop hbehind)
  | call program depth inner ending rest ihinner ihrest =>
    obtain ⟨hname, hdepth, hending, hinner, hrest⟩ := hforest
    obtain ⟨hlineending, hlineinner, hlinerest⟩ := hline
    have hafter := ihrest hrest hlinerest htop hbehind
    have hends : LogLine.Ends program ("Program " ++ program ++ ending.text) :=
      ending.ends_text hname hending hlineending
    have hbegins : LogLine.Begins program ("Program " ++ program ++ " invoke [" ++ depth ++ "]") :=
      ⟨hname, depth, "", hdepth, .inl rfl, by simp⟩
    rw [entries, List.cons_append, List.append_assoc, List.cons_append]
    exact .begins hbegins (ihinner hinner hlineinner rfl (.ends hends hafter))

/-- The events that a program wrote, read from a log that may be cut off, are just those of the data lines of its own
calls, in the order of the log and with the numbers of their lines. -/
theorem events_of_innermost_calls (forest : CallForest) (hforest : forest.WellFormed) (hline : forest.OnOneLine)
    (source : String) (k : Nat) :
    eventsOf source (forest.lines.take k) =
        ((forest.entries none).take k).zipIdx.filterMap (fun (entry, index) => entry.event? source index) ∧
      (∀ entry index, (∃ event, LogEntry.event? source entry index = some event) ↔
        entry.writer = some source ∧ CarriesEvent entry.text) ∧
      ∀ entry index event, LogEntry.event? source entry index = some event → event.logIndex = index := by
  refine ⟨?_, fun entry index => ?_, fun entry index event hevent => ?_⟩
  · have hreads : CallStack.Reads [] (forest.entries none ++ []) := reads_entries hforest hline rfl .nil
    rw [List.append_nil] at hreads
    have hlines : (forest.lines.take k).map String.toList =
        ((forest.entries none).take k).map fun entry => entry.text.toList := by
      rw [lines, ← List.map_take, List.map_map]
      rfl
    rw [eventsOf, hlines]
    exact hreads source k 0
  · by_cases hwriter : entry.writer = some source
    · simp [LogEntry.event?, hwriter, exists_dataEvent?_iff]
    · simp [LogEntry.event?, hwriter]
  · rw [LogEntry.event?, Option.ite_none_right_eq_some] at hevent
    exact logIndex_of_dataEvent? hevent.2

/-- A program is called by another one, writes an event and fails; then its caller writes the same line. -/
def failedInnerCall : CallForest :=
  .call "caller" "1"
    (.call "pair" "2" (.line creationLine .nil) (.failure (some (':', " custom program error"))) (.line creationLine .nil))
    .success .nil

theorem events_of_innermost_calls_failedInnerCall :
    failedInnerCall.WellFormed ∧ failedInnerCall.OnOneLine ∧
      (eventsOf "pair" (failedInnerCall.lines.take 5)).map Event.logIndex = [2] := by
  have hforest : failedInnerCall.WellFormed := by
    have hinner : LogLine.IsName "pair" ∧ LogLine.IsNumeral "2" := by decide +kernel
    have houter : LogLine.IsName "caller" ∧ LogLine.IsNumeral "1" := by decide +kernel
    have hreason : Text.isWord ':' = false ∧ '\n' ∉ " custom program error".toList := by decide +kernel
    refine ⟨houter.1, houter.2, trivial, ?_, trivial⟩
    exact ⟨hinner.1, hinner.2, hreason, ⟨plain_creationLine, trivial⟩, plain_creationLine, trivial⟩
  have hline : failedInnerCall.OnOneLine := ⟨trivial, ⟨nofun, trivial, trivial⟩, trivial⟩
  obtain ⟨hevents, -, -⟩ := events_of_innermost_calls failedInnerCall hforest hline "pair" 5
  refine ⟨hforest, hline, ?_⟩
  rw [hevents]
  decide +kernel

/-- The reason of an inner failure begins with a line break, and the caller writes an event after it. -/
def brokenReason : CallForest :=
  .call "caller" "1" (.call "pair" "2" .nil (.failure (some ('\n', "reason"))) (.line creationLine .nil)) .success .nil

/-- Where the reason of a failure goes on after a line break, the failed call is not seen to end, and a line of its
caller counts as its own. -/
theorem caller_line_misattributed :
    ¬∀ forest : CallForest, forest.WellFormed → ∀ source k, eventsOf source (forest.lines.take k) =
      ((forest.entries none).take k).zipIdx.filterMap fun (entry, index) => entry.event? source index := by
  intro h
  have hforest : brokenReason.WellFormed := by
    have hinner : LogLine.IsName "pair" ∧ LogLine.IsNumeral "2" := by decide +kernel
    have houter : LogLine.IsName "caller" ∧ LogLine.IsNumeral "1" := by decide +kernel
    have hreason : Text.isWord '\n' = false ∧ '\n' ∉ "reason".toList := by decide +kernel
    refine ⟨houter.1, houter.2, trivial, ?_, trivial⟩
    exact ⟨hinner.1, hinner.2, hreason, trivial, plain_creationLine, trivial⟩
  exact absurd (h brokenReason hforest "pair" 5) (by decide +kernel)

end CallForest
end PairIndex
