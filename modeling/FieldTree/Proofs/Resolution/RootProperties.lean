import FieldTree.Proofs.Resolution.Passes
import FieldTree.Proofs.Resolution.References
import Mathlib.Data.List.Forall2

/-! The properties of the root, each at the place that the root gives to it. A place tells whether its name is in the list
of all required names, in which each property adds its own behind its name and a dot. -/

namespace FieldTree

/-- What is referred to in a member of one of the objects in the root is referred to in the root. -/
theorem Members.references_of_mem {root : Members} {key : String} {entry : String × Json}
    (among : entry ∈ Json.members (root.given? key)) {target : String} (refers : target ∈ entry.2.references) :
    target ∈ (Json.object root).references := by
  have inside : entry.2 ∈ Json.partsOfMembers (Json.members (root.given? key)) := mem_parts_of_mem among
  exact Json.references_of_mem (List.mem_cons_of_mem _ (Node.mem_parts_of_members inside)) refers

namespace Document

/-- The names that a property of the root requires, each with the property before it. -/
def pathsInside : String × Json → List String
  | (key, .object node) =>
    ((Json.items (Members.given? node "required")).map Json.text).map fun name => key ++ "." ++ name
  | _ => []

theorem requiredPaths_eq (root : Members) :
    requiredPaths root = (Json.items (root.given? "required")).map Json.text ++
      (Json.members (root.given? "properties")).flatMap pathsInside := rfl

theorem eq_of_mem_pathsInside {entry : String × Json} {path : String} (among : path ∈ pathsInside entry) :
    ∃ name, path = entry.1 ++ "." ++ name := by
  obtain ⟨key, value⟩ := entry
  cases value with
  | object node =>
    obtain ⟨name, _, rfl⟩ := List.mem_map.mp among
    exact ⟨name, rfl⟩
  | _ => cases among

/-- The place that the root gives to one of its properties. -/
def placed (root : Members) (entry : String × Json) : Inner :=
  ⟨⟨some entry.1, some ((requiredPaths root).contains entry.1), some (Node.type? root = some .object)⟩, entry.2, none⟩

theorem outer_eq (root : Members) : outer root = (Json.members (root.given? "properties")).map (placed root) := rfl

end Document

/-- The entries have the same keys, and for all but one key the same values. -/
def Members.AlikeBut (property : String) (members members' : Members) : Prop :=
  List.Forall₂ (fun entry entry' => entry'.1 = entry.1 ∧ (entry.1 ≠ property → entry'.2 = entry.2)) members members'

namespace Members.AlikeBut
open Document

variable {property path : String}

theorem of_replaced (earlier later : Members) (node node' : Json) :
    AlikeBut property (earlier ++ (property, node) :: later) (earlier ++ (property, node') :: later) := by
  have alike : ∀ members : Members, AlikeBut property members members :=
    fun members => List.forall₂_same.mpr fun entry _ => ⟨rfl, fun _ => rfl⟩
  exact List.rel_append (alike earlier) (.cons ⟨rfl, fun different => absurd rfl different⟩ (alike later))

theorem mem_paths {members members' : Members} (alike : AlikeBut property members members')
    (apart : ∀ name, path ≠ property ++ "." ++ name) :
    path ∈ members'.flatMap pathsInside ↔ path ∈ members.flatMap pathsInside := by
  unfold AlikeBut at alike
  induction alike with
  | nil => rfl
  | @cons entry entry' _ _ same _ ih =>
    obtain ⟨key, node⟩ := entry
    obtain ⟨key', node'⟩ := entry'
    obtain ⟨rfl, same⟩ := same
    simp only [List.flatMap_cons, List.mem_append, ih]
    by_cases here : key' = property
    · subst here
      have never : ∀ node, path ∉ pathsInside (key', node) := by
        intro node among
        obtain ⟨name, told⟩ := eq_of_mem_pathsInside among
        exact apart name told
      simp only [never, false_or]
    · obtain rfl := same here
      rfl

/-- Only names behind that of the property are required by one of the roots alone. -/
theorem requiredPaths_contains {root root' : Members}
    (alike : AlikeBut property (Json.members (root.given? "properties")) (Json.members (root'.given? "properties")))
    (same : root'.given? "required" = root.given? "required") (apart : ∀ name, path ≠ property ++ "." ++ name) :
    (requiredPaths root').contains path = (requiredPaths root).contains path := by
  apply Bool.eq_iff_iff.mpr
  simp only [requiredPaths_eq, same, List.contains_iff_mem, List.mem_append, alike.mem_paths apart]

end Members.AlikeBut
end FieldTree
