import PairIndex.Bytes.Base64
import PairIndex.Event.Layout
import PairIndex.Text.Blank
import PairIndex.Text.Digit
import PairIndex.Text.Word

/-! The log of a transaction. Programs call one another, and the log shows where each call begins and ends; a data line
belongs to the innermost call that is open. `eventsOf` finds the events that a program wrote itself: a call stack is
kept while the lines are read, and a data line counts if the program is on top of it. -/

namespace PairIndex

/-- What a log line means for the call stack. -/
inductive LogLine where
  /-- A call of a program begins. -/
  | invoke (program : List Char)
  /-- The call of a program ends. -/
  | exit (program : List Char)
  /-- Data in base 64, with the white space around it taken away. -/
  | data (payload : List Char)
  /-- Anything else. -/
  | other
  deriving DecidableEq, Repr

namespace LogLine

/-- The characters after the given start, if a text has it. -/
def strip? (start chars : List Char) : Option (List Char) :=
  if start.isPrefixOf chars then some (chars.drop start.length) else none

/-- Whether nothing follows but at most one line break. -/
def isLineEnd (chars : List Char) : Bool :=
  chars == [] || chars == ['\n']

/-- The program that a line names after `Program `, a run of characters other than white space, and what follows it. -/
def programName? (chars : List Char) : Option (List Char × List Char) := do
  let rest ← strip? "Program ".toList chars
  let (name, after) := rest.span (fun c => !Text.isBlank c)
  if name.isEmpty then none else return (name, after)

/-- Whether a text is ` invoke [`, digits and `]` up to the end of the line. -/
def isInvokeTail (chars : List Char) : Bool :=
  match strip? " invoke [".toList chars with
  | none => false
  | some rest =>
    let (digits, after) := rest.span Text.isDigit
    match after with
    | ']' :: ending => !digits.isEmpty && isLineEnd ending
    | _ => false

/-- Whether a text can follow the word `failed`: it starts with no word character and stays on its line. -/
def isFailureReason (chars : List Char) : Bool :=
  !(chars.head?.any Text.isWord) && isLineEnd (chars.dropWhile (· != '\n'))

/-- Whether a text is ` success`, or ` failed` with or without a reason, up to the end of the line. -/
def isExitTail (chars : List Char) : Bool :=
  ((strip? " success".toList chars).any isLineEnd) || ((strip? " failed".toList chars).any isFailureReason)

/-- A data line, or a line that means nothing. -/
def dataOrOther (chars : List Char) : LogLine :=
  match strip? "Program data: ".toList chars with
  | some payload => .data (Text.trim payload)
  | none => .other

/-- What a line means. The forms of a call's begin and end are tried first, since a name may be any run of characters. -/
def ofChars (chars : List Char) : LogLine :=
  match programName? chars with
  | some (name, after) =>
    if isInvokeTail after then .invoke name
    else if isExitTail after then .exit name
    else dataOrOther chars
  | none => dataOrOther chars

end LogLine

/-- The programs whose calls are open, the innermost first. -/
abbrev CallStack := List (List Char)

/-- The stack after a line: a call's begin pushes, its end pops if that program is on top. -/
def CallStack.after (stack : CallStack) : LogLine → CallStack
  | .invoke program => program :: stack
  | .exit program => if stack.head? = some program then stack.tail else stack
  | .data _ | .other => stack

/-- The data of a line, if it was written by the given program. -/
def CallStack.dataFrom? (stack : CallStack) (source : List Char) : LogLine → Option (List Char)
  | .data payload => if stack.head? = some source then some payload else none
  | _ => none

/-- The event that a data line carries, if it carries one. -/
def eventOfData? (payload : List Char) (logIndex : Nat) : Option Event := do
  let bytes ← Base64.decodeChars? payload
  (decodePayload bytes logIndex).toOption.join

/-- The events that a program wrote in some lines, with the number of the first line and the calls open before it. -/
def eventsFrom (source : List Char) : Nat → CallStack → List (List Char) → List Event
  | _, _, [] => []
  | index, stack, line :: rest =>
    let kind := LogLine.ofChars line
    let event? := (stack.dataFrom? source kind).bind (eventOfData? · index)
    event?.toList ++ eventsFrom source (index + 1) (stack.after kind) rest

/-- The events that a program wrote in a transaction, in the order of its log. -/
def eventsOf (source : String) (lines : List String) : List Event :=
  eventsFrom source.toList 0 [] (lines.map String.toList)

end PairIndex
