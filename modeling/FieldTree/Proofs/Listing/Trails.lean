import FieldTree.Listing.Basic
import Mathlib.Data.List.Induction

/-! What a listing comes to, told without one. A walk of the tree stops at every leaf, and before every field that has no
name. A leaf is told by the trail that leads to it, and the listing ends at the first stop that it has to object to. -/

namespace FieldTree

namespace Listing

/-- A step of the walk, into a field of an object or into a collection. -/
inductive Step
  | child (name : String) (required : Bool)
  | element
  | value
  deriving DecidableEq

/-- The text that a step adds to the path before it. -/
def Step.mark : Step → String
  | .child name _ => "." ++ name
  | .element => "[]"
  | .value => "[:]"

/-- The texts of the steps one behind the other. No dot stands before the first name. -/
def path : List Step → String
  | [] => ""
  | .child name _ :: inside => name ++ String.join (inside.map Step.mark)
  | step :: inside => step.mark ++ String.join (inside.map Step.mark)

/-- What the collections directly around an end of the walk add to its type. The steps are those that lead out again. -/
def suffixOut : List Step → String
  | .element :: outside => "-array" ++ suffixOut outside
  | .value :: outside => "-map" ++ suffixOut outside
  | _ => ""

def suffix (trail : List Step) : String := suffixOut trail.reverse

/-- Whether the nearest field of an object around an end of the walk is required. -/
def requiredOut : List Step → Bool
  | .child _ required :: _ => required
  | _ :: outside => requiredOut outside
  | [] => false

def required (trail : List Step) : Bool := requiredOut trail.reverse

/-- Where the walk stops: at a leaf, or before a field without a name in the object that the trail leads to. -/
inductive Stop
  | leaf (trail : List Step) (kind : Kind)
  | unnamed (trail : List Step)
  deriving DecidableEq

/-- What is listed for a stop. -/
def Stop.leaf? : Stop → Option Leaf
  | .leaf trail kind => some ⟨path trail, kind.name ++ suffix trail, required trail⟩
  | .unnamed _ => none

def paths (stops : List Stop) : List String := (stops.filterMap Stop.leaf?).map Leaf.path

theorem mem_paths {stops : List Stop} {text : String} :
    text ∈ paths stops ↔ ∃ trail kind, Stop.leaf trail kind ∈ stops ∧ path trail = text := by
  simp only [paths, List.mem_map, List.mem_filterMap]
  constructor
  · rintro ⟨_, ⟨stop, among, told⟩, rfl⟩
    cases stop with
    | leaf trail kind =>
      cases told
      exact ⟨trail, kind, among, rfl⟩
    | unnamed => cases told
  · rintro ⟨trail, kind, among, rfl⟩
    exact ⟨_, ⟨_, among, rfl⟩, rfl⟩

/-- What there is to object to a stop that comes after others. -/
inductive Stop.Offends (before : List Stop) : Stop → ListingError → Prop
  | unnamed (trail : List Step) : Offends before (.unnamed trail) (.unnamed (path trail))
  | duplicate {trail : List Step} {kind : Kind} (again : path trail ∈ paths before) :
    Offends before (.leaf trail kind) (.duplicate (path trail))

/-- There is nothing to object to any of the stops. -/
def Free (stops : List Stop) : Prop :=
  ∀ before stop after, stops = before ++ stop :: after → ∀ error, ¬stop.Offends before error

end Listing

namespace Field
open Listing

/-- The name of a field that can be told by it. -/
def told? (field : Field) : Option String := field.name.filter (· ≠ "")

/-- Whether a field is required in an object that requires these names. -/
def RequiredAmong (requiredNames : List String) (field : Field) : Prop :=
  field.required = some true ∨ ∃ name ∈ requiredNames, field.name = some name

theorem told?_eq_some_iff {field : Field} {name : String} :
    field.told? = some name ↔ field.name = some name ∧ name ≠ "" := by
  simp [told?, Option.filter_eq_some_iff]

instance (requiredNames : List String) (field : Field) : Decidable (field.RequiredAmong requiredNames) :=
  inferInstanceAs (Decidable (_ ∨ _))

mutual
/-- The stops in a field, in the order of the tree. -/
def stops (trail : List Step) : Field → List Stop
  | .scalar _ _ type => [.leaf trail type.kind]
  | .array _ _ element _ _ => stops (trail ++ [.element]) element
  | .object _ _ [] _ => [.leaf trail .object]
  | .object _ _ (field :: fields) requiredNames => stopsAll trail requiredNames (field :: fields)
  | .map _ _ value => stops (trail ++ [.value]) value

def stopsAll (trail : List Step) (requiredNames : List String) : List Field → List Stop
  | [] => []
  | field :: rest =>
    (match field.told? with
      | some name => stops (trail ++ [.child name (field.RequiredAmong requiredNames)]) field
      | none => [.unnamed trail]) ++ stopsAll trail requiredNames rest
end

end Field

namespace Listing
open FieldTree.Field

/-! The texts of a trail that goes one step further. -/

theorem path_concat {trail : List Step} (begun : trail ≠ []) (step : Step) :
    path (trail ++ [step]) = path trail ++ step.mark := by
  cases trail with
  | nil => exact absurd rfl begun
  | cons first inside => cases first <;> simp [path, String.append_assoc]

theorem suffix_element (trail : List Step) : suffix (trail ++ [.element]) = "-array" ++ suffix trail := by
  simp [suffix, suffixOut]

theorem suffix_value (trail : List Step) : suffix (trail ++ [.value]) = "-map" ++ suffix trail := by
  simp [suffix, suffixOut]

theorem suffix_child (trail : List Step) (name : String) (required : Bool) :
    suffix (trail ++ [.child name required]) = "" := by
  simp [suffix, suffixOut]

theorem required_element (trail : List Step) : required (trail ++ [.element]) = required trail := by
  simp [required, requiredOut]

theorem required_value (trail : List Step) : required (trail ++ [.value]) = required trail := by
  simp [required, requiredOut]

theorem required_child (trail : List Step) (name : String) (flag : Bool) :
    required (trail ++ [.child name flag]) = flag := by
  simp [required, requiredOut]

theorem ne_nil_of_path {trail : List Step} (begun : path trail ≠ "") : trail ≠ [] := by
  rintro rfl
  exact begun rfl

/-- A trail that has begun keeps a path. -/
theorem path_concat_ne_empty {trail : List Step} (begun : path trail ≠ "") (step : Step) :
    path (trail ++ [step]) ≠ "" := by
  rw [path_concat (ne_nil_of_path begun)]
  intro empty
  exact begun (String.append_eq_empty_iff.mp empty).1

theorem isRequired_eq (field : Field) (requiredNames : List String) :
    isRequired field requiredNames = decide (field.RequiredAmong requiredNames) := by
  apply Bool.eq_iff_iff.mpr
  cases told : field.name with
  | none => simp [isRequired, RequiredAmong, told]
  | some name => simp [isRequired, RequiredAmong, told]

/-- A field of the object that the trail leads to lies one step further, if it has a name. -/
theorem childPath_eq {trail : List Step} (start : trail = [] ∨ path trail ≠ "") (field : Field) (flag : Bool) :
    childPath (path trail) field.name =
      match field.told? with
      | some name => .ok (path (trail ++ [.child name flag]))
      | none => .error (.unnamed (path trail)) := by
  cases told : field.told? with
  | some name =>
    obtain ⟨named, something⟩ := told?_eq_some_iff.mp told
    rcases start with rfl | begun
    · simp [named, childPath, something, path]
    · simp [named, childPath, something, begun, path_concat (ne_nil_of_path begun), Step.mark, String.append_assoc]
  | none =>
    cases named : field.name with
    | none => rfl
    | some name =>
      have empty : name = "" := by
        apply Decidable.byContradiction
        intro something
        cases told.symm.trans (told?_eq_some_iff.mpr ⟨named, something⟩)
      simp [childPath, empty]

/-- The path of a field with a name is not empty. -/
theorem path_told_ne_empty {trail : List Step} (start : trail = [] ∨ path trail ≠ "") {field : Field} {name : String}
    (told : field.told? = some name) (flag : Bool) : path (trail ++ [.child name flag]) ≠ "" := by
  rcases start with rfl | begun
  · have something := (Option.filter_eq_some_iff.mp told).2
    simpa [path] using something
  · exact path_concat_ne_empty begun _

/-! A listing goes over the stops, one after the other. -/

/-- Lists one stop more. -/
def Stop.add (leaves : List Leaf) : Stop → Except ListingError (List Leaf)
  | .leaf trail kind =>
    if path trail ∈ leaves.map Leaf.path then .error (.duplicate (path trail))
    else .ok (leaves ++ [⟨path trail, kind.name ++ suffix trail, required trail⟩])
  | .unnamed trail => .error (.unnamed (path trail))

theorem register_eq (leaves : List Leaf) {trail : List Step} (begun : path trail ≠ "") (kind : Kind) :
    register leaves ⟨path trail, kind.name ++ suffix trail, required trail⟩ =
      [Stop.leaf trail kind].foldlM Stop.add leaves := by
  simp only [register, begun, ite_false, List.foldlM_cons, List.foldlM_nil, bind_pure, Stop.add,
    List.contains_iff_mem]

mutual
theorem addField_eq (leaves : List Leaf) {trail : List Step} (begun : path trail ≠ "") : (field : Field) →
    addField leaves (path trail) (suffix trail) (required trail) field = (field.stops trail).foldlM Stop.add leaves
  | .scalar _ _ type => register_eq leaves begun type.kind
  | .array _ _ element _ _ => by
    have inside := addField_eq leaves (path_concat_ne_empty begun .element) element
    rwa [path_concat (ne_nil_of_path begun), suffix_element, required_element] at inside
  | .object _ _ [] _ => register_eq leaves begun .object
  | .object _ _ (field :: fields) _ => addFields_eq leaves (.inr begun) (field :: fields)
  | .map _ _ value => by
    have inside := addField_eq leaves (path_concat_ne_empty begun .value) value
    rwa [path_concat (ne_nil_of_path begun), suffix_value, required_value] at inside

theorem addFields_eq (leaves : List Leaf) {trail : List Step} (start : trail = [] ∨ path trail ≠ "")
    {requiredNames : List String} : (fields : List Field) →
      addFields leaves (path trail) requiredNames fields = (stopsAll trail requiredNames fields).foldlM Stop.add leaves
  | [] => rfl
  | field :: rest => by
    rw [addFields, childPath_eq start field (field.RequiredAmong requiredNames), stopsAll, List.foldlM_append,
      isRequired_eq]
    cases told : field.told? with
    | none => rfl
    | some name =>
      have here := addField_eq leaves (path_told_ne_empty start told (field.RequiredAmong requiredNames)) field
      rw [suffix_child, required_child] at here
      simp only [bind, Except.bind, ← here]
      split
      · rfl
      · exact addFields_eq _ start rest
end

/-! What comes of going over the stops. -/

theorem Stop.Offends.add {before : List Stop} {stop : Stop} {error : ListingError}
    (offends : stop.Offends before error) : stop.add (before.filterMap leaf?) = .error error := by
  cases offends with
  | unnamed => rfl
  | duplicate again => exact if_pos again

theorem Stop.add_of_free {before : List Stop} {stop : Stop} (free : ∀ error, ¬stop.Offends before error) :
    stop.add (before.filterMap leaf?) = .ok ((before ++ [stop]).filterMap leaf?) := by
  rw [List.filterMap_append]
  cases stop with
  | unnamed trail => exact absurd (.unnamed trail) (free _)
  | leaf trail kind => exact if_neg fun again => free _ (.duplicate again)

theorem free_nil : Free [] := by
  intro before stop after impossible
  simp at impossible

theorem free_concat {stops : List Stop} {stop : Stop} :
    Free (stops ++ [stop]) ↔ Free stops ∧ ∀ error, ¬stop.Offends stops error := by
  constructor
  · intro free
    refine ⟨?_, free stops stop [] rfl⟩
    rintro before other after rfl
    exact free before other (after ++ [stop]) (by simp)
  · rintro ⟨free, last⟩ before other after same
    rcases List.eq_nil_or_concat after with rfl | ⟨rest, final, rfl⟩
    · obtain ⟨rfl, one⟩ := List.append_inj' same rfl
      cases one
      exact last
    · have split : stops ++ [stop] = (before ++ other :: rest) ++ [final] := by simpa using same
      exact free before other rest (List.append_inj' split rfl).1

theorem Free.addAll {stops : List Stop} (free : Free stops) :
    stops.foldlM Stop.add [] = .ok (stops.filterMap Stop.leaf?) := by
  induction stops using List.reverseRecOn with
  | nil => rfl
  | append_singleton stops stop ih =>
    obtain ⟨earlier, last⟩ := free_concat.mp free
    rw [List.foldlM_append, ih earlier]
    exact (bind_pure _).trans (Stop.add_of_free last)

/-- If there is anything to object to, there is a stop that comes first. -/
theorem exists_offence {stops : List Stop} (offence : ¬Free stops) :
    ∃ before stop after error, stops = before ++ stop :: after ∧ Free before ∧ stop.Offends before error := by
  induction stops using List.reverseRecOn with
  | nil => exact absurd free_nil offence
  | append_singleton stops stop ih =>
    by_cases free : Free stops
    · obtain ⟨error, offends⟩ : ∃ error, stop.Offends stops error := by
        apply Classical.byContradiction
        intro none
        exact offence (free_concat.mpr ⟨free, not_exists.mp none⟩)
      exact ⟨stops, stop, [], error, rfl, free, offends⟩
    · obtain ⟨before, first, after, error, rfl, earlier, offends⟩ := ih free
      exact ⟨before, first, after ++ [stop], error, by simp, earlier, offends⟩

theorem addAll_of_offends {before after : List Stop} {stop : Stop} {error : ListingError} (free : Free before)
    (offends : stop.Offends before error) : (before ++ stop :: after).foldlM Stop.add [] = .error error := by
  rw [List.foldlM_append, free.addAll]
  change (stop :: after).foldlM Stop.add (before.filterMap Stop.leaf?) = .error error
  rw [List.foldlM_cons, offends.add]
  rfl

theorem addAll_ok_iff {stops : List Stop} {leaves : List Leaf} :
    stops.foldlM Stop.add [] = .ok leaves ↔ Free stops ∧ leaves = stops.filterMap Stop.leaf? := by
  constructor
  · intro ok
    by_cases free : Free stops
    · rw [free.addAll] at ok
      exact ⟨free, (Except.ok.inj ok).symm⟩
    · obtain ⟨before, stop, after, error, rfl, earlier, offends⟩ := exists_offence free
      cases (addAll_of_offends earlier offends).symm.trans ok
  · rintro ⟨free, rfl⟩
    exact free.addAll

theorem addAll_error_iff {stops : List Stop} {error : ListingError} :
    stops.foldlM Stop.add [] = .error error ↔
      ∃ before stop after, stops = before ++ stop :: after ∧ Free before ∧ stop.Offends before error := by
  constructor
  · intro failed
    by_cases free : Free stops
    · cases free.addAll.symm.trans failed
    · obtain ⟨before, stop, after, other, rfl, earlier, offends⟩ := exists_offence free
      cases (addAll_of_offends earlier offends).symm.trans failed
      exact ⟨before, stop, after, rfl, earlier, offends⟩
  · rintro ⟨before, stop, after, rfl, free, offends⟩
    exact addAll_of_offends free offends

theorem leaf_free_iff {before : List Stop} {trail : List Step} {kind : Kind} :
    (∀ error, ¬(Stop.leaf trail kind).Offends before error) ↔ path trail ∉ paths before := by
  constructor
  · intro free again
    exact free _ (.duplicate again)
  · rintro new _ (_ | again)
    exact new again

/-- Where there is nothing to object to, every stop is a leaf, and no two have one path. -/
theorem free_iff {stops : List Stop} :
    Free stops ↔ (∀ stop ∈ stops, ∃ trail kind, stop = .leaf trail kind) ∧ (paths stops).Nodup := by
  induction stops using List.reverseRecOn with
  | nil => simp [free_nil, paths]
  | append_singleton stops stop ih =>
    rw [free_concat, ih, List.forall_mem_append, List.forall_mem_singleton]
    cases stop with
    | unnamed trail =>
      constructor
      · rintro ⟨_, free⟩
        exact absurd (.unnamed trail) (free _)
      · rintro ⟨⟨_, _, _, impossible⟩, _⟩
        cases impossible
    | leaf trail kind =>
      have told : paths (stops ++ [.leaf trail kind]) = paths stops ++ [path trail] := by simp [paths, Stop.leaf?]
      rw [leaf_free_iff, told, List.nodup_append]
      constructor
      · rintro ⟨⟨leaves, nodup⟩, new⟩
        refine ⟨⟨leaves, trail, kind, rfl⟩, nodup, List.pairwise_singleton _ _, fun known among other last => ?_⟩
        rw [List.mem_singleton.mp last]
        rintro rfl
        exact new among
      · rintro ⟨⟨leaves, _⟩, nodup, _, apart⟩
        exact ⟨⟨leaves, nodup⟩, fun among => apart _ among _ List.mem_cons_self rfl⟩

theorem Free.leaves {stops : List Stop} (free : Free stops) :
    stops.map Stop.leaf? = (stops.filterMap Stop.leaf?).map some := by
  have leaves := (free_iff.mp free).1
  clear free
  induction stops with
  | nil => rfl
  | cons stop rest ih =>
    obtain ⟨⟨trail, kind, rfl⟩, others⟩ := List.forall_mem_cons.mp leaves
    rw [List.map_cons, ih others]
    rfl

/-- The stops of a schema. -/
def stopsOf (schema : Schema) : List Stop := stopsAll [] schema.requiredNames schema.properties

theorem ofFields_eq (fields : List Field) (requiredNames : List String) :
    ofFields fields requiredNames = (stopsAll [] requiredNames fields).foldlM Stop.add [] :=
  addFields_eq [] (.inl rfl) fields

theorem ofSchema_eq (schema : Schema) : ofSchema schema = (stopsOf schema).foldlM Stop.add [] := ofFields_eq _ _

/-- A listing ends at the first stop that there is something to object to: a field without a name, or a leaf whose path
is that of a leaf before it. Without such a stop it holds every leaf once, in the order of the tree, with the path, the
type and the requirement that the trail to it tells. It never finds a leaf without a path. -/
theorem ofSchema_iff (schema : Schema) :
    (∀ leaves, ofSchema schema = .ok leaves ↔
      Free (stopsOf schema) ∧ (stopsOf schema).map Stop.leaf? = leaves.map some) ∧
    (∀ error, ofSchema schema = .error error ↔ ∃ before stop after,
      stopsOf schema = before ++ stop :: after ∧ Free before ∧ stop.Offends before error) ∧
    ofSchema schema ≠ .error .noPath := by
  simp only [ofSchema_eq]
  refine ⟨fun leaves => ?_, fun error => addAll_error_iff, ?_⟩
  · rw [addAll_ok_iff]
    refine and_congr_right fun free => ?_
    rw [free.leaves, List.map_inj_right fun _ _ => Option.some.inj]
    exact eq_comm
  · intro failed
    obtain ⟨before, stop, after, _, _, impossible⟩ := addAll_error_iff.mp failed
    cases impossible

/-- The suffixes of a type are those of the path, the other way round. -/
example : (stopsAll [] ["grid"] [.object (some "grid") none
    [.array (some "cells") none (.map none none (.scalar none none .integer)) .zero false] []]).map Stop.leaf? =
      [some ⟨"grid.cells[][:]", "integer-map-array", false⟩] := by decide +kernel

end Listing
end FieldTree
