import FieldTree.Proofs.Listing.Leaves
import FieldTree.Proofs.Resolution.PropertySide

/-! How a property is swayed by whether its name is required. The fields that come of one node at two places that differ
in this differ at most in what they say themselves about being required. -/

namespace FieldTree

variable {σ : Type}

namespace Shape
open Node

/-- The shapes of one node among the properties, at two places of one name. -/
inductive Swayed (name : Option String) (required required' : Option Bool) : Shape → Shape → Prop
  | wrong {error} : Swayed name required required' (.wrong error) (.wrong error)
  | leaf {type} : Swayed name required required' (.leaf (.scalar name none type)) (.leaf (.scalar name none type))
  | array {inner inObject members} : Swayed name required required'
    (.group inner (.array ⟨name, required, inObject⟩ members)) (.group inner (.array ⟨name, required', inObject⟩ members))
  | listed {inner requiredNames} : Swayed name required required'
    (.group inner (.object name required requiredNames)) (.group inner (.object name required' requiredNames))
  | map {inner inObject} : Swayed name required required'
    (.group inner (.map ⟨name, required, inObject⟩)) (.group inner (.map ⟨name, required', inObject⟩))
  | own {inner} : Swayed name required required' (.group inner (.object name none [])) (.group inner (.object name none []))
  | reference {inObject members} : Swayed name required required'
    (.reference ⟨name, required, inObject⟩ members) (.reference ⟨name, required', inObject⟩ members)
  | combination {members combinator} : Swayed name required required'
    (.combination name members combinator) (.combination name members combinator)

section
variable {name : Option String} {required required' : Option Bool} (inObject : Option Bool)

theorem swayed_ofResult {result : Except SemanticError Field}
    (scalar : ∀ made, result = .ok made → ∃ type, made = .scalar name none type) :
    Swayed name required required' (ofResult result) (ofResult result) := by
  cases result with
  | ok made =>
    obtain ⟨type, rfl⟩ := scalar made rfl
    exact .leaf
  | error error => exact .wrong

theorem swayed_ofObject (members : Members) : Swayed name required required'
    (ofObject .property ⟨name, required, inObject⟩ members) (ofObject .property ⟨name, required', inObject⟩ members) := by
  unfold ofObject
  split
  · exact .combination
  · split
    · exact .listed
    · exact .map
    · split
      · exact .reference
      · exact .own

theorem swayed_ofTyped (members : Members) : Swayed name required required'
    (ofTyped .property ⟨name, required, inObject⟩ members) (ofTyped .property ⟨name, required', inObject⟩ members) := by
  unfold ofTyped
  split
  next type _ =>
    cases type with
    | integer => exact .leaf
    | number => exact swayed_ofResult fun made ok => numberField_scalar ok
    | array =>
      unfold ofType
      dsimp only
      split
      · exact .array
      · exact .wrong
    | object => exact swayed_ofObject inObject members
    | boolean => exact .leaf
    | text => exact swayed_ofResult fun made ok => textField_scalar ok
  · exact .wrong

theorem swayed_ofNode (node : Json) : Swayed name required required'
    (ofNode .property ⟨name, required, inObject⟩ node) (ofNode .property ⟨name, required', inObject⟩ node) := by
  cases node with
  | object members =>
    simp only [ofNode]
    split
    · exact .reference
    · split
      · exact swayed_ofTyped inObject members
      · split
        · exact .combination
        · split
          · exact swayed_ofObject none members
          · exact .wrong
  | _ => exact .wrong

end
end Shape

/-- The fields that come of one node at two places: a single field does not depend on the place, an object says what
its place says or nothing of it, and a collection is required as its place has it. -/
inductive Field.Swayed (required required' : Option Bool) : Field → Field → Prop
  | still {field} (single : field.isCollection = false) : Swayed required required' field field
  | object {name fields requiredNames} :
    Swayed required required' (.object name required fields requiredNames) (.object name required' fields requiredNames)
  | array {name inObject element minItems unique} : Swayed required required'
    (.array name (some (requiredCollection inObject required)) element minItems unique)
    (.array name (some (requiredCollection inObject required')) element minItems unique)
  | map {name inObject value} : Swayed required required'
    (.map name (some (requiredCollection inObject required)) value)
    (.map name (some (requiredCollection inObject required')) value)

namespace Field.Swayed
open Listing

variable {field field' : Field}

/-- Of two places that differ one requires the name, so a collection that both treat alike is required. -/
theorem requiredCollection_eq_true {inObject : Option Bool} {required required' : Bool} (different : required' ≠ required)
    (same : requiredCollection inObject (some required') = requiredCollection inObject (some required)) :
    requiredCollection inObject (some required) = true := by
  unfold requiredCollection at same ⊢
  cases required <;> cases required' <;> simp_all

/-- What says itself that it is required is listed as required in any case. -/
theorem leavesIn_of_required (said : field.required = some true) (requiredNames requiredNames' : List String) :
    field.leavesIn requiredNames' = field.leavesIn requiredNames := by
  simp only [leavesIn, isRequired, said, beq_self_eq_true, Bool.true_or]

/-- The field and what is listed of it stay the same just if the name is required in both cases or in neither, or if
that cannot be seen: the field says the same of itself, and it says that it is required or is an object with fields. -/
theorem same_iff {required required' : Bool} (swayed : Swayed (some required) (some required') field field')
    {requiredNames requiredNames' : List String} (told : field.name.any requiredNames.contains = required)
    (told' : field.name.any requiredNames'.contains = required') :
    (field' = field ∧ field'.leavesIn requiredNames' = field.leavesIn requiredNames) ↔
      required' = required ∨
        (field'.required = field.required ∧ (field.required = some true ∨ field.hasFields = true)) := by
  by_cases same : required' = required
  · subst same
    have fields_eq : field' = field := by cases swayed <;> rfl
    subst fields_eq
    simp only [leavesIn, isRequired, told, told', true_or, and_self]
  · simp only [same, false_or]
    cases swayed with
    | still single =>
      have flags : isRequired field requiredNames' = isRequired field requiredNames ↔ field.required = some true := by
        simp only [isRequired, told, told']
        by_cases said : field.required = some true
        · simp [said]
        · rw [beq_false_of_ne said, Bool.false_or, Bool.false_or]
          simp only [same, said]
      simp only [leavesIn, leaves_inj single, flags, true_and]
    | object => simp [Field.required, same]
    | array | map =>
      constructor
      · rintro ⟨fields_eq, _⟩
        have flags := congrArg Field.required fields_eq
        exact ⟨flags, .inl (congrArg some (requiredCollection_eq_true same (Option.some.inj flags)))⟩
      · rintro ⟨flags, said | impossible⟩
        · simp only [Field.required, Option.some.injEq] at flags
          rw [flags]
          exact ⟨rfl, leavesIn_of_required said _ _⟩
        · cases impossible

end Field.Swayed

section
variable {name : Option String} {required required' inObject : Option Bool}

theorem Field.Swayed.scalar {said : Option Bool} {type : Scalar} :
    Swayed required required' (.scalar name said type) (.scalar name said type) := by
  refine .still ?_
  cases type <;> rfl

theorem Shape.Swayed.group {inner : List Inner} {making : Making} {shape : Shape}
    (shapes : Swayed name required required' (.group inner making) shape) : ∃ making', shape = .group inner making' := by
  cases shapes <;> exact ⟨_, rfl⟩

theorem Making.swayed {inner inner' : List Inner} {making making' : Making} {fields : List Field} {made made' : Field}
    (shapes : Shape.Swayed name required required' (.group inner making) (.group inner' making'))
    (makes : making.make fields = .ok (some made)) (makes' : making'.make fields = .ok (some made')) :
    Field.Swayed required required' made made' := by
  cases shapes with
  | array =>
    cases fields with
    | nil => cases makes
    | cons element rest =>
      obtain ⟨minItems, unique, rfl, again⟩ := make_array makes
      rw [again] at makes'
      cases makes'
      exact .array
  | listed =>
    cases makes
    cases makes'
    exact .object
  | map =>
    cases fields with
    | nil => cases makes
    | cons value rest =>
      cases makes
      cases makes'
      exact .map
  | own =>
    cases makes
    cases makes'
    exact .still rfl

theorem Site.swayed_takeOver {members : Members} {field taken taken' : Field}
    (takes : Site.takeOver ⟨name, required, inObject⟩ members field = .ok taken)
    (takes' : Site.takeOver ⟨name, required', inObject⟩ members field = .ok taken') :
    Field.Swayed required required' taken taken' := by
  unfold Site.takeOver at takes takes'
  split at takes
  next wrapped =>
    rw [if_pos wrapped] at takes'
    obtain ⟨minItems, rfl, again⟩ := Node.arrayField_of_ok name takes
    rw [again] at takes'
    cases takes'
    exact .array
  next single =>
    rw [if_neg single] at takes'
    cases takes
    cases takes'
    cases field with
    | scalar _ _ type => cases type <;> exact .scalar
    | array => exact .array
    | object => exact .object
    | map => exact .map

/-- Without alternatives the node is walked alike at both places. -/
theorem Yields.swayed {context : Context σ} {node : Json} {before after after' : State σ} {field field' : Field}
    (choiceless : node.Choiceless)
    (yields : Yields context (.node .property ⟨name, required, inObject⟩ node) before [field] after)
    (yields' : Yields context (.node .property ⟨name, required', inObject⟩ node) before [field'] after') :
    Field.Swayed required required' field field' := by
  have shapes := @Shape.swayed_ofNode name required required' inObject node
  generalize told : Shape.ofNode .property ⟨name, required, inObject⟩ node = shape at shapes
  generalize told' : Shape.ofNode .property ⟨name, required', inObject⟩ node = shape' at shapes
  have walked := yields.walked told
  have walked' := yields'.walked told'
  cases shape with
  | wrong => exact walked.elim
  | leaf =>
    cases shapes
    cases walked.1
    cases walked'.1
    exact .scalar
  | group =>
    obtain ⟨making', rfl⟩ := shapes.group
    obtain ⟨fields, made, each, makes, same, _⟩ := walked
    obtain ⟨fields', made', each', makes', same', _⟩ := walked'
    obtain rfl := (each.unique each').1
    obtain rfl := Option.toList_eq_singleton_iff.mp same.symm
    obtain rfl := Option.toList_eq_singleton_iff.mp same'.symm
    exact Making.swayed shapes makes makes'
  | reference =>
    cases shapes
    obtain ⟨target, known, taken, refers, found, takes, same, _⟩ := walked
    obtain ⟨target', known', taken', refers', found', takes', same', _⟩ := walked'
    obtain rfl := Except.ok.inj (refers.symm.trans refers')
    obtain rfl := Option.some.inj (found.symm.trans found')
    cases same
    cases same'
    exact Site.swayed_takeOver takes takes'
  | combination =>
    cases shapes
    obtain ⟨rfl, gives, _⟩ := Shape.ofNode_combination told
    obtain rfl := choiceless.allOf gives
    obtain ⟨branches, used, middle, listed, taken, walked⟩ := walked
    obtain ⟨branches', used', middle', listed', taken', walked'⟩ := walked'
    obtain rfl := Except.ok.inj (listed.symm.trans listed')
    obtain ⟨rfl, rfl⟩ := Resolve.ends_pure.mp taken
    obtain ⟨rfl, rfl⟩ := Resolve.ends_pure.mp taken'
    split at walked
    next structural =>
      rw [if_pos structural] at walked'
      obtain ⟨parts, merged, same⟩ := walked
      obtain ⟨parts', merged', same'⟩ := walked'
      obtain rfl := (merged.unique merged').1
      cases same
      cases same'
      exact .still rfl
    next => exact absurd rfl walked.2.1

end
end FieldTree
