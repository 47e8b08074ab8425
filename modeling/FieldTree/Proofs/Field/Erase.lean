import FieldTree.Field.Basic

/-! Fields without what they say about being required. Whether a field is required is told by the place where it
stands, and everything else by its node. -/

namespace FieldTree.Field

mutual
/-- The field, with nothing decided about whether it, or any field in it, is required. -/
def erase : Field → Field
  | .scalar name _ type => .scalar name none type
  | .array name _ element minItems unique => .array name none (erase element) minItems unique
  | .object name _ fields requiredNames => .object name none (eraseAll fields) requiredNames
  | .map name _ value => .map name none (erase value)

def eraseAll : List Field → List Field
  | [] => []
  | field :: rest => erase field :: eraseAll rest
end

/-- The field without its own name either. -/
def bare (field : Field) : Field := (field.rename none).erase

theorem eraseAll_eq_map (fields : List Field) : eraseAll fields = fields.map erase := by
  induction fields with
  | nil => rfl
  | cons field rest ih => simp only [eraseAll, ih, List.map_cons]

theorem eraseAll_append (fields others : List Field) :
    eraseAll (fields ++ others) = eraseAll fields ++ eraseAll others := by
  simp only [eraseAll_eq_map, List.map_append]

@[simp] theorem name_erase (field : Field) : field.erase.name = field.name := by
  cases field <;> rfl

@[simp] theorem kind_erase (field : Field) : field.erase.kind = field.kind := by
  cases field <;> rfl

@[simp] theorem erase_rename (name : Option String) (field : Field) :
    (field.rename name).erase = field.erase.rename name := by
  cases field <;> rfl

@[simp] theorem erase_withRequired (required inObject : Option Bool) (field : Field) :
    (field.withRequired required inObject).erase = field.erase := by
  cases field <;> rfl

@[simp] theorem rename_rename (first second : Option String) (field : Field) :
    (field.rename first).rename second = field.rename second := by
  cases field <;> rfl

theorem rename_name (field : Field) : field.rename field.name = field := by
  cases field <;> rfl

@[simp] theorem bare_rename (name : Option String) (field : Field) : (field.rename name).bare = field.bare := by
  simp only [bare, rename_rename]

theorem bare_array (name : Option String) (required : Option Bool) (element : Field) (minItems : Number)
    (unique : Bool) :
    (Field.array name required element minItems unique).bare = .array none none element.erase minItems unique := rfl

theorem bare_object (name : Option String) (required : Option Bool) (fields : List Field)
    (requiredNames : List String) :
    (Field.object name required fields requiredNames).bare = .object none none (eraseAll fields) requiredNames := rfl

theorem bare_map (name : Option String) (required : Option Bool) (value : Field) :
    (Field.map name required value).bare = .map none none value.erase := rfl

/-- Fields of one name that are the same but for the name and the requirements differ in the requirements only. -/
theorem erase_eq_of_bare {field other : Field} (named : field.name = other.name) (same : field.bare = other.bare) :
    field.erase = other.erase := by
  have renamed := congrArg (Field.rename field.name) same
  simp only [bare, erase_rename, rename_rename] at renamed
  rw [← name_erase field, rename_name, name_erase, named, ← name_erase other, rename_name] at renamed
  exact renamed

theorem bare_eq_of_erase {field other : Field} (same : field.erase = other.erase) : field.bare = other.bare := by
  simp only [bare, erase_rename, same]

theorem map_name_of_eraseAll {fields others : List Field} (same : eraseAll fields = eraseAll others) :
    fields.map Field.name = others.map Field.name := by
  have names : ∀ fields : List Field, (eraseAll fields).map Field.name = fields.map Field.name := by
    intro fields
    simp only [eraseAll_eq_map, List.map_map]
    exact List.map_congr_left fun field _ => name_erase field
  rw [← names fields, ← names others, same]

theorem eraseAll_properties {field other : Field} {fields : List Field} (same : other.erase = field.erase)
    (ok : field.properties = .ok fields) : ∃ others, other.properties = .ok others ∧
      eraseAll others = eraseAll fields := by
  cases field with
  | scalar name required type =>
    cases ok
    cases other <;> simp only [erase, scalar.injEq, reduceCtorEq] at same
    obtain ⟨rfl, _, rfl⟩ := same
    exact ⟨_, rfl, rfl⟩
  | array => cases ok
  | object name required contents requiredNames =>
    cases ok
    cases other <;> simp only [erase, object.injEq, reduceCtorEq] at same
    exact ⟨_, rfl, same.2.2.1⟩
  | map => cases ok

end FieldTree.Field
