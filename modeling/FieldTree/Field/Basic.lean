import FieldTree.Field.Kind
import FieldTree.Number.Basic
/-! Fields: the shape that a schema gives to a value, as a tree. -/

namespace FieldTree

/-- Limits of a number. A limit that is not given is the integer zero. -/
structure Bounds where
  maximum : Number := .zero
  minimum : Number := .zero
  exclusiveMaximum : Number := .zero
  exclusiveMinimum : Number := .zero
  multipleOf : Number := .zero
  deriving DecidableEq, Inhabited

inductive Scalar
  | string (pattern : Option String) (minLength maxLength : Number) (format : Option String)
  | integer
  | number (bounds : Bounds)
  | boolean
  | date (format : String)
  | uuid (regex format : Option String)
  | enum (default : String) (values : List String)
  deriving DecidableEq, Inhabited

/-- Every field has a name, unless it is the element of an array, and says whether it is required, if
that was decided. -/
inductive Field
  | scalar (name : Option String) (required : Option Bool) (type : Scalar)
  | array (name : Option String) (required : Option Bool) (element : Field) (minItems : Number) (unique : Bool)
  | object (name : Option String) (required : Option Bool) (fields : List Field) (requiredNames : List String)
  | map (name : Option String) (required : Option Bool) (value : Field)
  deriving Inhabited

/-- What cannot be asked of a field or made into one. -/
inductive FieldError
  | noProperties (kind : Kind) (name : Option String)
  | unknownRequired (name : Option String) (missing : List String)
  deriving DecidableEq, Inhabited

/-- A name as shown in messages. -/
def nameText (name : Option String) : String := name.getD "None"

def FieldError.message : FieldError → String
  | .noProperties kind name =>
    let (title, inner) := if kind = .array then ("Array", "element") else ("Map", "value")
    title ++ " field '" ++ nameText name ++ "' has no properties; use its " ++ inner ++ " field instead."
  | .unknownRequired name missing =>
    "Object field '" ++ nameText name ++ "' requires unknown properties: " ++ ", ".intercalate missing

/-- Whether a field is built of wrong values. To ask for what a field has not is an error of another kind. -/
def FieldError.isValueError : FieldError → Bool
  | .noProperties .. => false
  | .unknownRequired .. => true

/-- A collection is required inside an object, and where the object lists it. -/
def requiredCollection (inObject required : Option Bool) : Bool :=
  inObject == some true || required == some true

def Bounds.sameValue (x y : Bounds) : Bool :=
  x.maximum.sameNumber y.maximum && x.minimum.sameNumber y.minimum &&
    x.exclusiveMaximum.sameNumber y.exclusiveMaximum &&
    x.exclusiveMinimum.sameNumber y.exclusiveMinimum && x.multipleOf.sameNumber y.multipleOf

namespace Scalar

def kind : Scalar → Kind
  | .string .. => .string
  | .integer => .integer
  | .number _ => .number
  | .boolean => .boolean
  | .date _ => .date
  | .uuid .. => .uuid
  | .enum .. => .enum

/-- Equality in which limits are compared as numbers. -/
def sameValue : Scalar → Scalar → Bool
  | .number x, .number y => x.sameValue y
  | .string pattern minLength maxLength format, .string pattern' minLength' maxLength' format' =>
    pattern == pattern' && minLength.sameNumber minLength' && maxLength.sameNumber maxLength' && format == format'
  | x, y => x == y

end Scalar

namespace Field

/-- The name of the field that stands for the values of a map. -/
def mapValueName : String := "internalMapField"

def name : Field → Option String
  | .scalar name .. => name
  | .array name .. => name
  | .object name .. => name
  | .map name .. => name

def required : Field → Option Bool
  | .scalar _ required _ => required
  | .array _ required .. => required
  | .object _ required .. => required
  | .map _ required _ => required

def kind : Field → Kind
  | .scalar _ _ type => type.kind
  | .array .. => .array
  | .object .. => .object
  | .map .. => .map

def isCollection (field : Field) : Bool := field.kind.isCollection

def rename (name : Option String) : Field → Field
  | .scalar _ required type => .scalar name required type
  | .array _ required element minItems unique => .array name required element minItems unique
  | .object _ required fields requiredNames => .object name required fields requiredNames
  | .map _ required value => .map name required value

/-- Sets whether the field is required; for a collection this is always decided. -/
def withRequired (required inObject : Option Bool) : Field → Field
  | .scalar name _ type => .scalar name required type
  | .array name _ element minItems unique =>
    .array name (some (requiredCollection inObject required)) element minItems unique
  | .object name _ fields requiredNames => .object name required fields requiredNames
  | .map name _ value => .map name (some (requiredCollection inObject required)) value

/-- The fields that a field contributes to an object it is merged into. -/
def properties : Field → Except FieldError (List Field)
  | .scalar name required type => .ok [.scalar name required type]
  | .array name .. => .error (.noProperties .array name)
  | .object _ _ fields _ => .ok fields
  | .map name .. => .error (.noProperties .map name)

/-- An object, provided that it holds every field it requires. -/
def ofFields (name : Option String) (required : Option Bool) (fields : List Field)
    (requiredNames : List String) : Except FieldError Field :=
  let names := fields.map Field.name
  match requiredNames.filter fun item => !names.contains (some item) with
  | [] => .ok (.object name required fields requiredNames)
  | missing => .error (.unknownRequired name missing)

mutual
/-- Equality of fields of one kind, with limits compared as numbers. -/
def sameValue : Field → Field → Bool
  | .scalar name required type, .scalar name' required' type' =>
    name == name' && required == required' && type.sameValue type'
  | .array name required element minItems unique, .array name' required' element' minItems' unique' =>
    name == name' && required == required' && element.sameValue element' &&
      minItems.sameNumber minItems' && unique == unique'
  | .object name required fields requiredNames, .object name' required' fields' requiredNames' =>
    name == name' && required == required' && sameValues fields fields' && requiredNames == requiredNames'
  | .map name required value, .map name' required' value' =>
    name == name' && required == required' && value.sameValue value'
  | _, _ => false

def sameValues : List Field → List Field → Bool
  | [], [] => true
  | field :: rest, field' :: rest' => field.sameValue field' && sameValues rest rest'
  | _, _ => false
end

@[simp] theorem name_rename (name : Option String) (field : Field) : (field.rename name).name = name := by
  cases field <;> rfl

@[simp] theorem kind_rename (name : Option String) (field : Field) : (field.rename name).kind = field.kind := by
  cases field <;> rfl

@[simp] theorem required_rename (name : Option String) (field : Field) :
    (field.rename name).required = field.required := by
  cases field <;> rfl

@[simp] theorem name_withRequired (required inObject : Option Bool) (field : Field) :
    (field.withRequired required inObject).name = field.name := by
  cases field <;> rfl

@[simp] theorem kind_withRequired (required inObject : Option Bool) (field : Field) :
    (field.withRequired required inObject).kind = field.kind := by
  cases field <;> rfl

theorem required_withRequired (required inObject : Option Bool) {field : Field} (collection : field.isCollection = true) :
    (field.withRequired required inObject).required = some (requiredCollection inObject required) := by
  cases field with
  | scalar name required type => cases type <;> cases collection
  | array => rfl
  | object => cases collection
  | map => rfl

end Field

/-- The root of a resolved document. Required names are the root's own and, joined by a dot, those of
its properties. -/
structure Schema where
  id : String
  name : String
  type : String
  requiredNames : List String
  properties : List Field
  definitions : List (String × Field)

end FieldTree
