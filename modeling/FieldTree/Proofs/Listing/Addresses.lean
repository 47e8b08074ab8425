import FieldTree.Proofs.Field.Parts
import FieldTree.Proofs.Listing.Leaves

/-! A path leads to every leaf if the fields of all objects have names. -/

namespace FieldTree

namespace Field

/-- The field can be told by its name. -/
def Named (field : Field) : Prop := ∃ name, field.name = some name ∧ name ≠ ""

/-- The fields of an object can be told by their names. -/
def Addressable (field : Field) : Prop := ∀ fields, field.contents? = some fields → ∀ child ∈ fields, child.Named

theorem addressable_object {name : Option String} {required : Option Bool} {fields : List Field}
    {requiredNames : List String} :
    (Field.object name required fields requiredNames).Addressable ↔ ∀ child ∈ fields, child.Named := by
  simp [Addressable, contents?]

/-- What is no object has no fields that would need names. -/
theorem addressable_of_contents {field : Field} (other : field.contents? = none) : field.Addressable := by
  intro fields impossible
  rw [other] at impossible
  cases impossible

end Field

namespace Listing
open FieldTree.Field

theorem childPath_of_named {field : Field} (named : field.Named) (path : String) :
    ∃ place, childPath path field.name = .ok place := by
  obtain ⟨name, told, something⟩ := named
  rw [told]
  exact ⟨_, if_neg something⟩

theorem named_of_childPath {field : Field} {path place : String} (ok : childPath path field.name = .ok place) :
    field.Named := by
  unfold childPath at ok
  split at ok
  · cases ok
  next name told =>
    split at ok
    · cases ok
    next something => exact ⟨name, told, something⟩

theorem register_ne_unnamed (leaves : List Leaf) (leaf : Leaf) (place : String) :
    register leaves leaf ≠ .error (.unnamed place) := by
  unfold register
  split
  · simp
  · split <;> simp

mutual
/-- With names for all fields none is found unnamed. -/
theorem addField_ne_unnamed {leaves : List Leaf} {path suffix : String} {required : Bool} (place : String) :
    (field : Field) → field.Everywhere Addressable →
      addField leaves path suffix required field ≠ .error (.unnamed place)
  | .object _ _ [] _, _ => register_ne_unnamed _ _ place
  | .object _ _ (field :: fields) _, everywhere =>
    have ⟨here, inside⟩ := everywhere_iff.mp everywhere
    addFields_ne_unnamed place (field :: fields) (addressable_object.mp here) inside
  | .array _ _ element _ _, everywhere =>
    addField_ne_unnamed place element ((everywhere_iff.mp everywhere).2 element List.mem_cons_self)
  | .map _ _ value, everywhere =>
    addField_ne_unnamed place value ((everywhere_iff.mp everywhere).2 value List.mem_cons_self)
  | .scalar .., _ => register_ne_unnamed _ _ place

theorem addFields_ne_unnamed {leaves : List Leaf} {path : String} {requiredNames : List String} (place : String) :
    (fields : List Field) → (∀ field ∈ fields, field.Named) → (∀ field ∈ fields, field.Everywhere Addressable) →
      addFields leaves path requiredNames fields ≠ .error (.unnamed place)
  | [], _, _ => by simp [addFields]
  | field :: rest, named, everywhere => by
    obtain ⟨below, placed⟩ := childPath_of_named (named field List.mem_cons_self) path
    simp only [addFields, placed]
    intro failed
    cases here : addField leaves below "" (isRequired field requiredNames) field with
    | error error =>
      simp only [here, bind, Except.bind] at failed
      cases failed
      exact addField_ne_unnamed place field (everywhere field List.mem_cons_self) here
    | ok middle =>
      simp only [here, bind, Except.bind] at failed
      exact addFields_ne_unnamed place rest (fun other later => named other (List.mem_cons_of_mem _ later))
        (fun other later => everywhere other (List.mem_cons_of_mem _ later)) failed
end

mutual
/-- A listing that succeeds has found names for all fields. -/
theorem everywhere_of_addField {leaves more : List Leaf} {path suffix : String} {required : Bool} : (field : Field) →
    addField leaves path suffix required field = .ok more → field.Everywhere Addressable
  | .object _ _ [] _, _ =>
    everywhere_iff.mpr ⟨addressable_object.mpr (List.forall_mem_nil _), List.forall_mem_nil _⟩
  | .object _ _ (field :: fields) _, ok =>
    have ⟨named, everywhere⟩ := everywhere_of_addFields (field :: fields) ok
    everywhere_iff.mpr ⟨addressable_object.mpr named, everywhere⟩
  | .array _ _ element _ _, ok =>
    everywhere_iff.mpr ⟨addressable_of_contents rfl, List.forall_mem_singleton.mpr (everywhere_of_addField element ok)⟩
  | .map _ _ value, ok =>
    everywhere_iff.mpr ⟨addressable_of_contents rfl, List.forall_mem_singleton.mpr (everywhere_of_addField value ok)⟩
  | .scalar .., _ => everywhere_iff.mpr ⟨addressable_of_contents rfl, List.forall_mem_nil _⟩

theorem everywhere_of_addFields {leaves more : List Leaf} {path : String} {requiredNames : List String} :
    (fields : List Field) → addFields leaves path requiredNames fields = .ok more →
      (∀ field ∈ fields, field.Named) ∧ ∀ field ∈ fields, field.Everywhere Addressable
  | [], _ => ⟨List.forall_mem_nil _, List.forall_mem_nil _⟩
  | field :: rest, ok => by
    obtain ⟨place, placed, ok⟩ := bind_ok ok
    obtain ⟨middle, here, later⟩ := bind_ok ok
    obtain ⟨named, everywhere⟩ := everywhere_of_addFields rest later
    exact ⟨List.forall_mem_cons.mpr ⟨named_of_childPath placed, named⟩,
      List.forall_mem_cons.mpr ⟨everywhere_of_addField field here, everywhere⟩⟩
end

end Listing
end FieldTree
