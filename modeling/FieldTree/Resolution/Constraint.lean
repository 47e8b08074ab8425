import FieldTree.Number.Literal
import FieldTree.Resolution.Node
/-! Fields whose whole shape is told by the constraints of their node. Numbers may be given as text. -/

namespace FieldTree.Node

/-- The value of a limit: zero if it is not given. -/
def numberLimit (node : Members) (keyword : String) (field : Option String) : Except SemanticError Number :=
  match node.given? keyword with
  | none => .ok .zero
  | some (.number value) => .ok value
  | some (.bool value) => .error (.notNumeric keyword field (.bool value))
  | some value =>
    match Literal.number? value.text with
    | some number => .ok number
    | none => .error (.notNumeric keyword field value)

/-- The value of a limit that counts something. -/
def countLimit (node : Members) (keyword : String) (field : Option String) : Except SemanticError Int :=
  match node.given? keyword with
  | some (.bool _) => .error (.notInteger keyword field)
  | _ => do
    let number ← numberLimit node keyword field
    match number.toInt? with
    | some value => .ok value
    | none => .error (.notInteger keyword field)

/-- A flag is set by true and by its name, with any blanks and in any case. -/
def flag (node : Members) (keyword : String) : Bool :=
  match node.given? keyword with
  | some (.bool value) => value
  | value => Text.lower (Text.strip (Json.textOf value)) = "true"

def arrayField (field : Option String) (node : Members) (element : Field) (required : Bool) :
    Except SemanticError Field := do
  let minItems ← countLimit node "minItems" field
  return .array field (some required) element (.int minItems) (flag node "uniqueItems")

def numberField (field : Option String) (node : Members) : Except SemanticError Field := do
  let maximum ← numberLimit node "maximum" field
  let minimum ← numberLimit node "minimum" field
  let exclusiveMaximum ← numberLimit node "exclusiveMaximum" field
  let exclusiveMinimum ← numberLimit node "exclusiveMinimum" field
  let multipleOf ← numberLimit node "multipleOf" field
  return .scalar field none (.number { maximum, minimum, exclusiveMaximum, exclusiveMinimum, multipleOf })

def enumField (field : Option String) (values : List Json) : Except SemanticError Field :=
  let name : Json → String
    | .null => "null"
    | value => value.text
  match values.map name with
  | [] => .error (.emptyEnum field)
  | first :: rest => .ok (.scalar field none (.enum first (first :: rest)))

/-- The formats of points in time. -/
def dateFormats : List String := ["date-time", "time", "date"]

/-- A text with a format keeps no other constraint. -/
def formatField (field : Option String) (format : String) : Field :=
  if dateFormats.contains format then .scalar field none (.date format)
  else if format = "uuid" then .scalar field none (.uuid none (some "uuid"))
  else .scalar field none (.string none .zero .zero (some format))

/-- Values take precedence over a format, and a format over a pattern and limits of length. -/
def textField (field : Option String) (node : Members) : Except SemanticError Field :=
  match node.given? "enum" with
  | some values => enumField field (Json.items (some values))
  | none =>
    match node.given? "format" with
    | some format => .ok (formatField field format.text)
    | none => do
      let minLength ← countLimit node "minLength" field
      let maxLength ← countLimit node "maxLength" field
      return .scalar field none (.string ((node.given? "pattern").map Json.text) (.int minLength) (.int maxLength) none)

end FieldTree.Node
