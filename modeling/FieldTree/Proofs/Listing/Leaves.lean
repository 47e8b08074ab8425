import FieldTree.Listing.Basic
import FieldTree.Proofs.Resolution.Node

/-! The leaves of a field, whatever else is listed. A listing that succeeds holds the leaves of one field after the
other. -/

namespace FieldTree

/-- The path of a field below another. -/
def Listing.below (path : String) (name : Option String) : String :=
  if path = "" then name.getD "" else path ++ "." ++ name.getD ""

namespace Field
open Listing

mutual
def leaves (path suffix : String) (required : Bool) : Field → List Leaf
  | .object _ _ [] _ => [⟨path, Kind.object.name ++ suffix, required⟩]
  | .object _ _ (field :: fields) requiredNames => leavesAll path requiredNames (field :: fields)
  | .array _ _ element _ _ => leaves (path ++ "[]") ("-array" ++ suffix) required element
  | .map _ _ value => leaves (path ++ "[:]") ("-map" ++ suffix) required value
  | .scalar _ _ type => [⟨path, type.kind.name ++ suffix, required⟩]

def leavesAll (path : String) (requiredNames : List String) : List Field → List Leaf
  | [] => []
  | field :: rest =>
    leaves (below path field.name) "" (isRequired field requiredNames) field ++ leavesAll path requiredNames rest
end

/-- The leaves of a field of the root. -/
def leavesIn (requiredNames : List String) (field : Field) : List Leaf :=
  field.leaves (below "" field.name) "" (isRequired field requiredNames)

theorem leavesAll_eq (requiredNames : List String) (fields : List Field) :
    leavesAll "" requiredNames fields = fields.flatMap (leavesIn requiredNames) := by
  induction fields with
  | nil => rfl
  | cons field rest ih =>
    simp only [leavesAll, ih, List.flatMap_cons]
    rfl

/-- An object with at least one field. -/
def hasFields : Field → Bool
  | .object _ _ (_ :: _) _ => true
  | _ => false

/-- A leaf shows whether it is required. The fields of an object do not show whether the object is. -/
theorem leaves_inj {field : Field} (single : field.isCollection = false) {path suffix : String}
    {required required' : Bool} :
    field.leaves path suffix required' = field.leaves path suffix required ↔
      required' = required ∨ field.hasFields = true := by
  cases field with
  | scalar => simp [leaves, hasFields]
  | array => cases single
  | object _ _ fields => cases fields <;> simp [leaves, hasFields]
  | map => cases single

end Field

namespace Listing
open FieldTree.Field

theorem childPath_ok {path place : String} {name : Option String} (ok : childPath path name = .ok place) :
    place = below path name := by
  cases name with
  | none => cases ok
  | some name =>
    unfold childPath at ok
    dsimp only at ok
    split at ok
    · cases ok
    · exact (Except.ok.inj ok).symm

theorem register_ok {leaves more : List Leaf} {leaf : Leaf} (ok : register leaves leaf = .ok more) :
    more = leaves ++ [leaf] := by
  unfold register at ok
  split at ok
  · cases ok
  · split at ok
    · cases ok
    · exact (Except.ok.inj ok).symm

mutual
theorem addField_ok {leaves more : List Leaf} {path suffix : String} {required : Bool} : (field : Field) →
    addField leaves path suffix required field = .ok more → more = leaves ++ field.leaves path suffix required
  | .object _ _ [] _, ok => register_ok ok
  | .object _ _ (field :: fields) _, ok => addFields_ok (field :: fields) ok
  | .array _ _ element _ _, ok => addField_ok element ok
  | .map _ _ value, ok => addField_ok value ok
  | .scalar .., ok => register_ok ok

theorem addFields_ok {leaves more : List Leaf} {path : String} {requiredNames : List String} :
    (fields : List Field) → addFields leaves path requiredNames fields = .ok more →
      more = leaves ++ leavesAll path requiredNames fields
  | [], ok => by
    cases ok
    exact (List.append_nil leaves).symm
  | field :: rest, ok => by
    obtain ⟨place, placed, ok⟩ := bind_ok ok
    obtain ⟨middle, here, later⟩ := bind_ok ok
    rw [addFields_ok rest later, addField_ok field here, childPath_ok placed, leavesAll, List.append_assoc]
end

/-- A listing that succeeds holds the leaves of each field of the root. -/
theorem ofFields_ok {fields : List Field} {requiredNames : List String} {leaves : List Leaf}
    (ok : ofFields fields requiredNames = .ok leaves) : leaves = fields.flatMap (leavesIn requiredNames) := by
  rw [← leavesAll_eq]
  exact addFields_ok fields ok

end Listing
end FieldTree
