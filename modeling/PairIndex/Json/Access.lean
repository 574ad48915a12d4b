import PairIndex.Json.Literal
import PairIndex.Number.Integer

/-! Looking into values of unknown form: members, items, integers and texts, and what is said when a value has another
form than the one looked for. -/

namespace PairIndex.Json

/-- Why a value could not be looked into. -/
inductive AccessError where
  /-- An object lacks a key that it must have. -/
  | missingKey (key : String)
  /-- A value of this form has no members, no items or no integer. -/
  | wrongType (message : String)
  /-- Optional members are looked for in something that is no object. -/
  | noMembers (kind : String)
  /-- A text or a number stands for no integer. -/
  | notInteger (message : String)
  /-- An infinite number stands for no integer. -/
  | infinite
  deriving DecidableEq, Repr

def AccessError.message : AccessError → String
  | .missingKey key => String.ofList (quotedChars key)
  | .wrongType message => message
  | .noMembers kind => "'" ++ kind ++ "' object has no attribute 'get'"
  | .notInteger message => message
  | .infinite => "cannot convert float infinity to integer"

/-- The name of a value's form in messages. -/
def kindName : Json → String
  | .null => "NoneType"
  | .bool _ => "bool"
  | .int _ => "int"
  | .float _ => "float"
  | .str _ => "str"
  | .arr _ => "list"
  | .obj _ => "dict"

/-- The member that an object must have. -/
def member (key : String) : Json → Except AccessError Json
  | .obj members =>
    match Assoc.get? key members with
    | some value => .ok value
    | none => .error (.missingKey key)
  | .arr _ => .error (.wrongType "list indices must be integers or slices, not str")
  | .str _ => .error (.wrongType "string indices must be integers, not 'str'")
  | value => .error (.wrongType ("'" ++ value.kindName ++ "' object is not subscriptable"))

/-- The member that an object may have, absent if it has none. -/
def optionalMember (key : String) : Json → Except AccessError Json
  | .obj members => .ok ((Assoc.get? key members).getD .null)
  | value => .error (.noMembers value.kindName)

/-- Whether some characters stand next to each other, in order, in a longer text. -/
def occursIn (part : List Char) : List Char → Bool
  | [] => part.isEmpty
  | c :: rest => part.isPrefixOf (c :: rest) || occursIn part rest

/-- Whether a text occurs in a value: as a key, as an item, or as part of a text. -/
def mentions (key : String) : Json → Except AccessError Bool
  | .obj members => .ok (Assoc.mem key members)
  | .arr items => .ok (items.any fun | .str text => text == key | _ => false)
  | .str text => .ok (occursIn key.toList text.toList)
  | value => .error (.wrongType ("argument of type '" ++ value.kindName ++ "' is not iterable"))

/-- Whether a value is neither absent, false, zero nor empty. -/
def isTruthy : Json → Bool
  | .null => false
  | .bool b => b
  | .int n => n != 0
  | .float x => !x.isZero
  | .str text => !text.isEmpty
  | .arr items => !items.isEmpty
  | .obj members => !members.isEmpty

/-- The items of a value: of a list its items, of a text its characters, of an object its keys. -/
def items : Json → Except AccessError (List Json)
  | .arr items => .ok items
  | .str text => .ok (text.toList.map fun c => .str (String.singleton c))
  | .obj members => .ok (members.map fun (key, _) => .str key)
  | value => .error (.wrongType ("'" ++ value.kindName ++ "' object is not iterable"))

/-- The items of a value, none if it is empty, absent or zero. -/
def itemsOrNone (value : Json) : Except AccessError (List Json) :=
  if value.isTruthy then value.items else .ok []

/-- What is said about a text that has too many digits. -/
def tooManyDigitsMessage (digits : Nat) : String :=
  "Exceeds the limit (4300 digits) for integer string conversion: value has " ++
    Number.integerText digits ++ " digits; use sys.set_int_max_str_digits() to increase the limit"

/-- The integer that a value stands for: truth values count as one and zero, other numbers are cut off at the point, and
texts are read. -/
def toInteger : Json → Except AccessError Int
  | .bool b => .ok (if b then 1 else 0)
  | .int n => .ok n
  | .float x =>
    match x.truncate?, x.shape with
    | some n, _ => .ok n
    | none, .infinite _ => .error .infinite
    | none, _ => .error (.notInteger "cannot convert float NaN to integer")
  | .str text =>
    match Number.readInteger text.toList with
    | .ok n => .ok n
    | .error .malformed =>
      .error (.notInteger ("invalid literal for int() with base 10: " ++ String.ofList (quotedChars text)))
    | .error (.tooLong digits) => .error (.notInteger (tooManyDigitsMessage digits))
  | value =>
    .error (.wrongType
      ("int() argument must be a string, a bytes-like object or a real number, not '" ++ value.kindName ++ "'"))

end PairIndex.Json
