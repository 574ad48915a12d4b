import PairIndex.Settings.EnvFile
import PairIndex.Settings.Field

/-! Where settings are read from: the environment, and a file for what the environment does not set. Names are compared
without regard to case. A group of settings is read as a whole, and all its faults are reported in the order in which its
settings are listed. -/

namespace PairIndex

/-- The variables of the environment, and the text of the file if there is one. -/
structure Environment where
  bindings : List (String × String) := []
  file : Option String := none

/-- A setting with a fault. -/
structure FieldError where
  name : String
  fault : FieldFault
  deriving DecidableEq, Repr

namespace Environment

/-- The small form of a character that may stand in the name of a setting. The kelvin sign has the small form `k`. -/
def smallForm (c : Char) : Char :=
  if c = '\u212a' then 'k' else c.toLower

/-- A name without regard to case. -/
def foldCase (name : String) : String :=
  String.ofList (name.toList.map smallForm)

/-- The last value that a list gives to a name without regard to case. -/
def lastValue? {α : Type} (name : String) (pairs : List (String × α)) : Option α :=
  (pairs.reverse.find? fun p => foldCase p.1 == foldCase name).map (·.2)

/-- The text of a setting. -/
def get? (e : Environment) (name : String) : Option String :=
  match lastValue? name e.bindings with
  | some text => some text
  | none => (e.file.map (EnvFile.values e.bindings)).bind fun bound => (lastValue? name bound).join

end Environment

/-- A value, or all faults of the settings that it is made of. -/
inductive Checked (α : Type) where
  | valid (value : α)
  | invalid (errors : List FieldError)

namespace Checked

def errors {α : Type} : Checked α → List FieldError
  | .valid _ => []
  | .invalid errors => errors

/-- Two checked values as one: the faults of both are kept, in order. -/
protected def seq {α β : Type} (f : Checked (α → β)) (x : Unit → Checked α) : Checked β :=
  match f, x () with
  | .valid f, .valid a => .valid (f a)
  | f, x => .invalid (f.errors ++ x.errors)

instance : Applicative Checked where
  pure := .valid
  seq := Checked.seq

def toExcept {α : Type} : Checked α → Except (List FieldError) α
  | .valid value => .ok value
  | .invalid errors => .error errors

end Checked

namespace Environment

/-- A setting that has a default. -/
def setting {α : Type} (e : Environment) (name : String) (default : α) (read : String → Except FieldFault α) :
    Checked α :=
  match e.get? name with
  | none => .valid default
  | some text =>
    match read text with
    | .ok value => .valid value
    | .error fault => .invalid [⟨name, fault⟩]

/-- A setting that is required. -/
def required {α : Type} (e : Environment) (name : String) (read : String → Except FieldFault α) : Checked α :=
  match e.get? name with
  | none => .invalid [⟨name, .missing⟩]
  | some text =>
    match read text with
    | .ok value => .valid value
    | .error fault => .invalid [⟨name, fault⟩]

/-- A setting that may be left out. -/
def optional {α : Type} (e : Environment) (name : String) (read : String → Except FieldFault α) : Checked (Option α) :=
  e.setting name none fun text => (read text).map some

end Environment

namespace Field

/-- A text that starts in one of some ways. -/
def startingWith (starts : List String) (reason text : String) : Except FieldFault String :=
  if starts.any fun start => text.startsWith start then .ok text else .error (.refused reason)

def oneOf (texts : List String) (text : String) : Except FieldFault String :=
  if texts.contains text then .ok text else .error .notListed

def integer (bounds : IntegerBounds) (text : String) : Except FieldFault Int :=
  match integer? text.toList with
  | none => .error .notInteger
  | some n => bounds.check n

def number (bounds : NumberBounds) (text : String) : Except FieldFault Double :=
  match number? text.toList with
  | none => .error .notNumber
  | some x => bounds.check x

def boolean (text : String) : Except FieldFault Bool :=
  match boolean? text with
  | none => .error .notBoolean
  | some b => .ok b

/-- Texts between commas, without the white space around them and without the empty ones. -/
def commaList (text : String) : List String :=
  ((text.splitOn ",").map Text.trimText).filter (!·.isEmpty)

end Field
end PairIndex
