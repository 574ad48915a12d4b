import PairIndex.Assoc
import PairIndex.Number.Double

/-! JSON values. An object keeps its members in the order in which their keys first appeared, with one member a key. -/

namespace PairIndex

/-- A JSON value; integers have any size, other numbers are doubles. -/
inductive Json where
  | null
  | bool (value : Bool)
  | int (value : Int)
  | float (value : Double)
  | str (value : String)
  | arr (items : List Json)
  | obj (members : List (String × Json))
  deriving Inhabited, Repr

namespace Json

/-- The value of an object's key, if the value is an object that has it. -/
def get? (key : String) : Json → Option Json
  | .obj members => Assoc.get? key members
  | _ => none

def isNull : Json → Bool
  | .null => true
  | _ => false

def ofText? : Option String → Json
  | some text => .str text
  | none => .null

end Json
end PairIndex
