import FieldTree.Listing.Basic
import FieldTree.Proofs.Field.Erase

/-! What a listing shows of a field. Of all that is said about being required it shows only whether a field of an object
is required, and that may be said by the field or by the object. -/

namespace FieldTree

namespace Field
open Listing

mutual
/-- The field as a listing shows it: every field of an object says itself whether it is required, and nothing else says
anything about it. -/
def shown : Field → Field
  | .scalar name _ type => .scalar name none type
  | .array name _ element minItems unique => .array name none (shown element) minItems unique
  | .object name _ fields requiredNames => .object name none (shownAll requiredNames fields) requiredNames
  | .map name _ value => .map name none (shown value)

def shownAll (requiredNames : List String) : List Field → List Field
  | [] => []
  | field :: rest =>
    (shown field).withRequired (some (isRequired field requiredNames)) none :: shownAll requiredNames rest
end

@[simp] theorem name_shown (field : Field) : field.shown.name = field.name := by
  cases field <;> rfl

@[simp] theorem shown_rename (name : Option String) (field : Field) :
    (field.rename name).shown = field.shown.rename name := by
  cases field <;> rfl

@[simp] theorem shown_withRequired (required inObject : Option Bool) (field : Field) :
    (field.withRequired required inObject).shown = field.shown := by
  cases field <;> rfl

theorem required_mark (required : Bool) (field : Field) :
    (field.withRequired (some required) none).required = some required := by
  cases field <;> cases required <;> rfl

mutual
theorem erase_shown : (field : Field) → field.shown.erase = field.erase
  | .scalar .. => rfl
  | .array name required element minItems unique => by simp only [shown, erase, erase_shown element]
  | .object name required fields requiredNames => by simp only [shown, erase, eraseAll_shownAll requiredNames fields]
  | .map name required value => by simp only [shown, erase, erase_shown value]

theorem eraseAll_shownAll (requiredNames : List String) :
    (fields : List Field) → eraseAll (shownAll requiredNames fields) = eraseAll fields
  | [] => rfl
  | field :: rest => by
    simp only [shownAll, eraseAll, erase_withRequired, erase_shown field, eraseAll_shownAll requiredNames rest]
end

theorem shownAll_append (requiredNames : List String) (fields others : List Field) :
    shownAll requiredNames (fields ++ others) = shownAll requiredNames fields ++ shownAll requiredNames others := by
  induction fields with
  | nil => rfl
  | cons field rest ih => simp only [List.cons_append, shownAll, ih]

end Field

namespace Listing
open FieldTree.Field

/-- The leaves of a field do not depend on what it says itself about being required. -/
theorem addField_withRequired (leaves : List Leaf) (path suffix : String) (required : Bool) (said inObject : Option Bool)
    (field : Field) :
    addField leaves path suffix required (field.withRequired said inObject) =
      addField leaves path suffix required field := by
  cases field with
  | object name _ fields requiredNames => cases fields <;> rfl
  | _ => rfl

theorem isRequired_mark (required : Bool) (field : Field) (requiredNames : List String) :
    isRequired (field.shown.withRequired (some required) none) requiredNames =
      (required || field.name.any requiredNames.contains) := by
  simp only [isRequired, required_mark, name_withRequired, name_shown]
  cases required <;> rfl

mutual
theorem addField_shown (leaves : List Leaf) (path suffix : String) (required : Bool) :
    (field : Field) → addField leaves path suffix required field.shown = addField leaves path suffix required field
  | .scalar .. => rfl
  | .array _ _ element _ _ => by
    simp only [shown, addField]
    exact addField_shown leaves _ _ required element
  | .object _ _ [] _ => rfl
  | .object _ _ (field :: fields) requiredNames => by
    have each := addFields_shownAll leaves path requiredNames (field :: fields)
    simp only [shownAll] at each
    simp only [shown, shownAll, addField]
    exact each
  | .map _ _ value => by
    simp only [shown, addField]
    exact addField_shown leaves _ _ required value

theorem addFields_shownAll (leaves : List Leaf) (path : String) (requiredNames : List String) :
    (fields : List Field) →
      addFields leaves path requiredNames (shownAll requiredNames fields) = addFields leaves path requiredNames fields
  | [] => rfl
  | field :: rest => by
    have marked : isRequired (field.shown.withRequired (some (isRequired field requiredNames)) none) requiredNames =
        isRequired field requiredNames := by
      rw [isRequired_mark, isRequired, Bool.or_assoc, Bool.or_self]
    simp only [shownAll, addFields, name_withRequired, name_shown, marked, addField_withRequired]
    congr 1
    funext place
    rw [addField_shown leaves place "" _ field]
    congr 1
    funext leaves
    exact addFields_shownAll leaves path requiredNames rest
end

/-- Of the required names only those of the fields count. -/
theorem addFields_congr {requiredNames requiredNames' : List String} (leaves : List Leaf) (path : String)
    {fields : List Field}
    (same : ∀ field ∈ fields, field.name.any requiredNames'.contains = field.name.any requiredNames.contains) :
    addFields leaves path requiredNames' fields = addFields leaves path requiredNames fields := by
  induction fields generalizing leaves with
  | nil => rfl
  | cons field rest ih =>
    obtain ⟨here, later⟩ := List.forall_mem_cons.mp same
    simp only [addFields, isRequired, here, ih _ later]

/-- Fields that are shown alike have the same leaves. -/
theorem ofFields_eq_of_shown {fields fields' : List Field} {requiredNames requiredNames' : List String}
    (shown : shownAll requiredNames fields' = shownAll requiredNames fields)
    (same : ∀ field ∈ fields', field.name.any requiredNames'.contains = field.name.any requiredNames.contains) :
    ofFields fields' requiredNames' = ofFields fields requiredNames := by
  unfold ofFields
  rw [addFields_congr [] "" same, ← addFields_shownAll, shown, addFields_shownAll]

end Listing
end FieldTree
