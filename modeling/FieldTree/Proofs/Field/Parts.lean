import FieldTree.Field.Basic

/-! The fields in a field, at any depth. -/

namespace FieldTree.Field

/-- The fields directly inside. -/
def children : Field → List Field
  | .scalar .. => []
  | .array _ _ element _ _ => [element]
  | .object _ _ fields _ => fields
  | .map _ _ value => [value]

mutual
/-- The field itself and all fields inside. -/
def parts : Field → List Field
  | .scalar name required type => [.scalar name required type]
  | .array name required element minItems unique => .array name required element minItems unique :: parts element
  | .object name required fields requiredNames => .object name required fields requiredNames :: partsOfAll fields
  | .map name required value => .map name required value :: parts value

def partsOfAll : List Field → List Field
  | [] => []
  | field :: rest => parts field ++ partsOfAll rest
end

theorem partsOfAll_eq (fields : List Field) : partsOfAll fields = fields.flatMap parts := by
  induction fields with
  | nil => rfl
  | cons field rest ih => rw [partsOfAll, ih, List.flatMap_cons]

theorem parts_eq (field : Field) : field.parts = field :: field.children.flatMap parts := by
  cases field with
  | scalar => rfl
  | array => simp only [parts, children, List.flatMap_cons, List.flatMap_nil, List.append_nil]
  | object => simp only [parts, children, partsOfAll_eq]
  | map => simp only [parts, children, List.flatMap_cons, List.flatMap_nil, List.append_nil]

/-- It holds of the field, and of every field inside. -/
def Everywhere (holds : Field → Prop) (field : Field) : Prop := ∀ part ∈ field.parts, holds part

variable {holds : Field → Prop}

theorem everywhere_iff {field : Field} :
    field.Everywhere holds ↔ holds field ∧ ∀ child ∈ field.children, child.Everywhere holds := by
  unfold Everywhere
  rw [parts_eq, List.forall_mem_cons]
  simp only [List.mem_flatMap]
  constructor
  · rintro ⟨here, inside⟩
    exact ⟨here, fun child among part deeper => inside part ⟨child, among, deeper⟩⟩
  · rintro ⟨here, inside⟩
    exact ⟨here, fun part ⟨child, among, deeper⟩ => inside child among part deeper⟩

/-- It goes from one field to another with the same fields inside. -/
theorem Everywhere.of_children {field other : Field} (everywhere : field.Everywhere holds)
    (same : other.children = field.children) (here : holds field → holds other) : other.Everywhere holds := by
  obtain ⟨holds, inside⟩ := everywhere_iff.mp everywhere
  exact everywhere_iff.mpr ⟨here holds, same ▸ inside⟩

/-- The fields of an object. -/
def contents? : Field → Option (List Field)
  | .object _ _ fields _ => some fields
  | _ => none

theorem children_of_contents {field : Field} {fields : List Field} (inside : field.contents? = some fields) :
    field.children = fields := by
  cases field with
  | object =>
    cases inside
    rfl
  | _ => cases inside

@[simp] theorem contents?_rename (name : Option String) (field : Field) :
    (field.rename name).contents? = field.contents? := by
  cases field <;> rfl

@[simp] theorem contents?_withRequired (required inObject : Option Bool) (field : Field) :
    (field.withRequired required inObject).contents? = field.contents? := by
  cases field <;> rfl

@[simp] theorem children_rename (name : Option String) (field : Field) :
    (field.rename name).children = field.children := by
  cases field <;> rfl

@[simp] theorem children_withRequired (required inObject : Option Bool) (field : Field) :
    (field.withRequired required inObject).children = field.children := by
  cases field <;> rfl

end FieldTree.Field
