import FieldTree.Number.Basic
/-! Values of the YAML language. -/

namespace FieldTree

/-- Keys of a mapping may be any value that is no collection, and may be repeated. -/
inductive Yaml
  | null
  | bool (value : Bool)
  | number (value : Number)
  | string (value : String)
  | timestamp (text : String)
  /-- Binary data, of which only the size is kept. -/
  | binary (size : Nat)
  | sequence (items : List Yaml)
  | mapping (entries : List (Yaml × Yaml))
  | set (items : List Yaml)
  deriving Inhabited

namespace Yaml

/-- The value for a text as a key. Of several, the last counts. -/
def get? (entries : List (Yaml × Yaml)) (key : String) : Option Yaml :=
  match entries with
  | [] => none
  | (.string k, value) :: rest => if k = key then some ((get? rest key).getD value) else get? rest key
  | _ :: rest => get? rest key

/-- Whether a value says anything: null, false, zero, and what is empty do not. -/
def isTruthy : Yaml → Bool
  | .null => false
  | .bool value => value
  | .number value => !value.isZero
  | .string value => value ≠ ""
  | .timestamp _ => true
  | .binary size => size ≠ 0
  | .sequence items => !items.isEmpty
  | .mapping entries => !entries.isEmpty
  | .set items => !items.isEmpty

end Yaml
end FieldTree
