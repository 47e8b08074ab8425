import FieldTree.Entries
import FieldTree.Number.Basic
/-! JSON values. Members of an object keep their order. -/

namespace FieldTree

inductive Json
  | null
  | bool (value : Bool)
  | number (value : Number)
  | string (value : String)
  | array (items : List Json)
  | object (members : List (String × Json))
  deriving Inhabited

/-- The members of an object, in order. -/
abbrev Members := Entries Json

namespace Members

/-- The value given for a key. A null counts as nothing given. -/
def given? (members : Members) (key : String) : Option Json :=
  match members.get? key with
  | some .null => none
  | other => other

def gives (members : Members) (key : String) : Bool := (members.given? key).isSome

end Members

namespace Json

def members? : Json → Option Members
  | .object members => some members
  | _ => none

def isObject (value : Json) : Bool := value.members?.isSome

/-- The members of an object; nothing else has any. -/
def members (value : Option Json) : Members := (value.bind members?).getD []

/-- The items of an array; nothing else has any. -/
def items : Option Json → List Json
  | some (.array items) => items
  | _ => []

/-- The text of a scalar; a null, an array and an object have none. -/
def text : Json → String
  | .null => ""
  | .bool value => if value then "true" else "false"
  | .number value => value.text
  | .string value => value
  | .array _ => ""
  | .object _ => ""

def textOf (value : Option Json) : String := (value.map text).getD ""

end Json
end FieldTree
