/-! The kinds of fields: collections hold one element for many values, objects hold named fields, and
the others are scalars. -/

namespace FieldTree

inductive Kind
  | string
  | integer
  | number
  | boolean
  | date
  | uuid
  | enum
  | array
  | object
  | map
  deriving DecidableEq, Inhabited

namespace Kind

def all : List Kind := [string, integer, number, boolean, date, uuid, enum, array, object, map]

def name : Kind → String
  | string => "string"
  | integer => "integer"
  | number => "number"
  | boolean => "boolean"
  | date => "date"
  | uuid => "uuid"
  | enum => "enum"
  | array => "array"
  | object => "object"
  | map => "map"

def isCollection : Kind → Bool
  | array => true
  | map => true
  | _ => false

def isScalar : Kind → Bool
  | object => false
  | kind => !kind.isCollection

theorem isScalar_eq_false {kind : Kind} (collection : kind.isCollection = true) : kind.isScalar = false := by
  cases kind <;> first | rfl | cases collection

end Kind
end FieldTree
