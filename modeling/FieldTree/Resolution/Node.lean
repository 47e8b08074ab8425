import FieldTree.Json.Basic
import FieldTree.Resolution.Error
import FieldTree.Text.Blank
/-! What a schema node says about itself. -/

namespace FieldTree.Node

/-- The types with fields of their own. Every other type name means text. -/
inductive BaseType
  | integer
  | number
  | array
  | object
  | boolean
  | text
  deriving DecidableEq

def BaseType.ofName : String → BaseType
  | "integer" => .integer
  | "number" => .number
  | "array" => .array
  | "object" => .object
  | "boolean" => .boolean
  | _ => .text

/-- The name of the first item that is not null, neither as a value nor by name. -/
def firstTypeName? : List Json → Option String
  | [] => none
  | .null :: rest => firstTypeName? rest
  | item :: rest => if Text.lower item.text = "null" then firstTypeName? rest else some (Text.lower item.text)

def typeName? (node : Members) : Option String :=
  match node.given? "type" with
  | some (.string name) => some (Text.lower name)
  | some (.array items) => firstTypeName? items
  | _ => none

def type? (node : Members) : Option BaseType := (typeName? node).map BaseType.ofName

def hasType (node : Members) : Bool := node.gives "type"

def isReference (node : Members) : Bool := node.gives "$ref"

/-- What follows the last slash, or everything if there is none. -/
def lastSegment (reference : String) : String :=
  String.ofList (reference.toList.reverse.takeWhile (· ≠ '/')).reverse

/-- The definition that the node refers to. A reference out of the document is an error. -/
def target (node : Members) : Except SemanticError String :=
  let reference := Json.textOf (node.given? "$ref")
  if reference.toList.head? = some '#' then .ok (lastSegment reference) else .error (.foreignReference reference)

/-- The first combinator given, in this order. -/
def combinator? (node : Members) : Option Combinator :=
  [Combinator.anyOf, .allOf, .oneOf].find? fun combinator => node.gives combinator.keyword

/-- The members of all items, if every item is an object. -/
def allMembers? : List Json → Option (List Members)
  | [] => some []
  | .object members :: rest => (allMembers? rest).map (members :: ·)
  | _ :: _ => none

def branches (node : Members) (combinator : Combinator) (field : Option String) :
    Except SemanticError (List Members) :=
  match node.given? combinator.keyword with
  | some (.array items) =>
    match allMembers? items with
    | some branches => .ok branches
    | none => .error (.branchesNotSchemas combinator field)
  | _ => .error (.branchesNotSchemas combinator field)

/-- Whether a branch speaks of properties; otherwise it speaks of a scalar. -/
def isStructural (branch : Members) : Bool := branch.gives "properties" || branch.gives "$ref"

/-- The names listed as required: each once, where it stands first. -/
def requiredNames (node : Members) : List String :=
  (((Json.items (node.given? "required")).map Json.text).filter (· ≠ "")).eraseDups

/-- Whether an array must have an element, as told by the text of its lower limit. -/
def elementRequired (node : Members) : Bool :=
  let limit := Text.strip (Json.textOf (node.given? "minItems"))
  limit ≠ "" && limit ≠ "0"

/-- Members with these keys are no properties of an object that lists none. -/
def keywords : List String :=
  ["$id", "$schema", "$ref", "type", "required", "properties", "additionalProperties", "definitions", "anyOf",
    "allOf", "oneOf", "title", "description", "default", "examples", "$comment", "propertyNames",
    "patternProperties", "dependencies", "not", "if", "then", "else", "contains", "const"]

end FieldTree.Node
