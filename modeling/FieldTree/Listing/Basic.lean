import FieldTree.Resolution.Document
/-! The flat list of the leaves of a field tree: scalars, and objects without fields. A leaf is told by its
path. -/

namespace FieldTree

structure Leaf where
  path : String
  type : String
  required : Bool
  deriving DecidableEq

/-- Why there is no list of leaves. -/
inductive ListingError
  | unsupportedType (type : String)
  | invalid (type : String) (cause : ResolutionError)
  | unnamed (path : String)
  | noPath
  | duplicate (path : String)

def ListingError.message : ListingError → String
  | .unsupportedType type => "Unsupported schema type: " ++ type
  | .invalid type cause => "Invalid " ++ type ++ " schema: " ++ cause.message
  | .unnamed path => "Cannot flatten an unnamed field below '" ++ (if path = "" then "<root>" else path) ++ "'."
  | .noPath => "Cannot register a field without a path."
  | .duplicate path => "Duplicate flattened field detected: " ++ path

namespace Listing

/-- A field is required when it says so or when the object around it lists its name. -/
def isRequired (field : Field) (requiredNames : List String) : Bool :=
  field.required == some true || (field.name.any requiredNames.contains)

/-- Names are joined by dots. The empty path is that of the root. -/
def childPath (path : String) : Option String → Except ListingError String
  | none => .error (.unnamed path)
  | some name =>
    if name = "" then .error (.unnamed path) else .ok (if path = "" then name else path ++ "." ++ name)

/-- Adds a leaf at the end. No two leaves have one path. -/
def register (leaves : List Leaf) (leaf : Leaf) : Except ListingError (List Leaf) :=
  if leaf.path = "" then .error .noPath
  else if (leaves.map Leaf.path).contains leaf.path then .error (.duplicate leaf.path)
  else .ok (leaves ++ [leaf])

mutual
/-- Adds the leaves of a field. Collections leave their mark on the path behind, and on the type in front
of what the collections around them have left. -/
def addField (leaves : List Leaf) (path suffix : String) (required : Bool) : Field → Except ListingError (List Leaf)
  | .object _ _ [] _ => register leaves ⟨path, Kind.object.name ++ suffix, required⟩
  | .object _ _ (field :: fields) requiredNames => addFields leaves path requiredNames (field :: fields)
  | .array _ _ element _ _ => addField leaves (path ++ "[]") ("-array" ++ suffix) required element
  | .map _ _ value => addField leaves (path ++ "[:]") ("-map" ++ suffix) required value
  | .scalar _ _ type => register leaves ⟨path, type.kind.name ++ suffix, required⟩

def addFields (leaves : List Leaf) (path : String) (requiredNames : List String) :
    List Field → Except ListingError (List Leaf)
  | [] => .ok leaves
  | field :: rest => do
    let place ← childPath path field.name
    let leaves ← addField leaves place "" (isRequired field requiredNames) field
    addFields leaves path requiredNames rest
end

/-- The list of the fields of a root, with room for any. -/
def ofFields (fields : List Field) (requiredNames : List String) : Except ListingError (List Leaf) :=
  addFields [] "" requiredNames fields

def ofSchema (schema : Schema) : Except ListingError (List Leaf) :=
  ofFields schema.properties schema.requiredNames

end Listing

/-- Why a schema gives no list of leaves: the schema, the selector, a field asked for what it has not, or fields
nested deeper than there is room for. -/
inductive ListingFailure
  | listing (error : ListingError)
  | choice (error : ChoiceError)
  | field (error : FieldError)
  | noRoom

/-- What is said of a stack that is used up. -/
def noRoomMessage : String := "maximum recursion depth exceeded"

def ListingFailure.message? : ListingFailure → Option String
  | .listing error => some error.message
  | .choice error => error.message?
  | .field error => some error.message
  | .noRoom => some noRoomMessage

/-- What a caller leaves of the stack: how deep nodes may be nested while a schema is resolved, and how deep fields
may be while it is listed. -/
structure Room where
  nodes : Nat
  fields : Nat

/-- The leaves of a schema given as text, the selector's state afterwards, and what happened meanwhile. -/
structure ListingOutcome (σ : Type) where
  result : Except ListingFailure (List Leaf)
  selector : σ
  events : List Event

namespace Listing

mutual
/-- Adds the leaves of a field as `addField` does, with room for only so many fields inside one another. -/
def addFieldWithin : Nat → List Leaf → String → String → Bool → Field → Except ListingFailure (List Leaf)
  | 0, _, _, _, _, _ => .error .noRoom
  | _ + 1, leaves, path, suffix, required, .object _ _ [] _ =>
    (register leaves ⟨path, Kind.object.name ++ suffix, required⟩).mapError .listing
  | room + 1, leaves, path, _, _, .object _ _ (field :: fields) requiredNames =>
    addFieldsWithin room leaves path requiredNames (field :: fields)
  | room + 1, leaves, path, suffix, required, .array _ _ element _ _ =>
    addFieldWithin room leaves (path ++ "[]") ("-array" ++ suffix) required element
  | room + 1, leaves, path, suffix, required, .map _ _ value =>
    addFieldWithin room leaves (path ++ "[:]") ("-map" ++ suffix) required value
  | _ + 1, leaves, path, suffix, required, .scalar _ _ type =>
    (register leaves ⟨path, type.kind.name ++ suffix, required⟩).mapError .listing

def addFieldsWithin (room : Nat) (leaves : List Leaf) (path : String) (requiredNames : List String) :
    List Field → Except ListingFailure (List Leaf)
  | [] => .ok leaves
  | field :: rest => do
    let place ← (childPath path field.name).mapError .listing
    let leaves ← addFieldWithin room leaves place "" (isRequired field requiredNames) field
    addFieldsWithin room leaves path requiredNames rest
end

def ofFieldsWithin (room : Nat) (fields : List Field) (requiredNames : List String) :
    Except ListingFailure (List Leaf) :=
  addFieldsWithin room [] "" requiredNames fields

def ofSchemaWithin (room : Nat) (schema : Schema) : Except ListingFailure (List Leaf) :=
  ofFieldsWithin room schema.properties schema.requiredNames

/-- The one type of schema that is read. -/
def jsonSchemaType : String := "json_schema"

def ofResolved (room : Room) (type : String) : Except Failure Schema → Except ListingFailure (List Leaf)
  | .ok schema => ofSchemaWithin room.fields schema
  | .error (.document cause) => .error (.listing (.invalid type cause))
  | .error (.choice error) => .error (.choice error)
  | .error (.field error) => .error (.field error)

def ofText {σ : Type} (room : Room) (selector : Selector σ) (start : σ) (type text : String) : ListingOutcome σ :=
  if type = jsonSchemaType then
    let outcome := (Document.text text).resolveWithin room.nodes selector start
    ⟨ofResolved room type outcome.result, outcome.selector, outcome.events⟩
  else ⟨.error (.listing (.unsupportedType type)), start, []⟩

end Listing
end FieldTree
