import FieldTree.Proofs.Resolution.Nesting
import FieldTree.Proofs.Resolution.Shape
import Mathlib.Logic.Relation

/-! References between definitions. A definition refers to whatever is referred to anywhere in its body, also where
the walk never comes. It is acyclic if it leads to no cycle of references. -/

namespace FieldTree

/-- The name that an object refers to. -/
def Json.reference? : Json → Option String
  | .object members => (Members.given? members "$ref").map fun reference => Node.lastSegment reference.text
  | _ => none

def Json.references (value : Json) : List String := value.parts.filterMap Json.reference?

theorem Json.references_of_mem {part value : Json} (inside : part ∈ value.parts) {target : String}
    (among : target ∈ part.references) : target ∈ value.references := by
  obtain ⟨inner, deeper, refers⟩ := List.mem_filterMap.mp among
  exact List.mem_filterMap.mpr ⟨inner, parts_trans deeper value inside, refers⟩

theorem Node.mem_references {node : Members} {name : String} (reference : isReference node = true)
    (refers : target node = .ok name) : name ∈ (Json.object node).references := by
  obtain ⟨value, given⟩ := Option.isSome_iff_exists.mp reference
  refine List.mem_filterMap.mpr ⟨.object node, Json.self_mem_parts _, ?_⟩
  simp only [target, given, Json.textOf, Option.map_some, Option.getD_some] at refers
  split at refers
  · cases refers
    simp only [Json.reference?, given, Option.map_some]
  · cases refers

open Relation

def Refers (definitions : Members) (name target : String) : Prop :=
  ∃ body, definitions.given? name = some body ∧ target ∈ body.references

/-- All that a definition refers to. -/
def Members.targets (definitions : Members) (name : String) : List String :=
  ((definitions.given? name).map Json.references).getD []

/-- No cycle of references can be reached. -/
def Acyclic (definitions : Members) (name : String) : Prop :=
  ∀ reached, ReflTransGen (Refers definitions) name reached → ¬TransGen (Refers definitions) reached reached

namespace Acyclic

variable {definitions : Members} {name target : String}

theorem step (acyclic : Acyclic definitions name) (refers : Refers definitions name target) :
    Acyclic definitions target :=
  fun reached path => acyclic reached (ReflTransGen.head refers path)

theorem irreflexive (acyclic : Acyclic definitions name) : ¬TransGen (Refers definitions) name name :=
  acyclic name .refl

/-- A name that is not declared refers to nothing. -/
theorem of_declared (each : ∀ entry ∈ definitions, Acyclic definitions entry.1) (name : String) :
    Acyclic definitions name := by
  by_cases declared : ∃ target, Refers definitions name target
  · obtain ⟨target, body, given, _⟩ := declared
    exact each _ (Members.mem_of_given? given)
  · intro reached path cycle
    have stays : reached = name := by
      rcases ReflTransGen.cases_head path with same | ⟨target, refers, _⟩
      · exact same.symm
      · exact absurd ⟨target, refers⟩ declared
    subst stays
    obtain ⟨target, refers, _⟩ := TransGen.head'_iff.mp cycle
    exact declared ⟨target, refers⟩

/-- A name is acyclic if it is among names that refer to names of a lower rank only. -/
theorem of_ranks {ranks : Entries Nat} (ranked : (ranks.get? name).isSome)
    (down : ∀ entry ∈ ranks, ∀ target ∈ definitions.targets entry.1, (ranks.get? target).any (· < entry.2)) :
    Acyclic definitions name := by
  have lower : ∀ {name target more}, ranks.get? name = some more → Refers definitions name target →
      ∃ less, ranks.get? target = some less ∧ less < more := by
    intro name target more ranked refers
    obtain ⟨body, given, among⟩ := refers
    have listed : target ∈ definitions.targets name := by
      simp only [Members.targets, given, Option.map_some, Option.getD_some]
      exact among
    obtain ⟨less, found, smaller⟩ := (Option.any_eq_true _ _).mp
      (down _ (Entries.mem_of_get?_eq_some ranked) target listed)
    exact ⟨less, found, by simpa using smaller⟩
  have reached : ∀ {target}, ReflTransGen (Refers definitions) name target → ∃ rank, ranks.get? target = some rank := by
    intro target path
    induction path with
    | refl => exact Option.isSome_iff_exists.mp ranked
    | tail _ refers ih =>
      obtain ⟨rank, same⟩ := ih
      obtain ⟨less, found, _⟩ := lower same refers
      exact ⟨less, found⟩
  intro start path cycle
  obtain ⟨rank, same⟩ := reached path
  have descends : ∀ {target}, TransGen (Refers definitions) start target →
      ∃ less, ranks.get? target = some less ∧ less < rank := by
    intro target path
    induction path with
    | single refers => exact lower same refers
    | tail _ refers ih =>
      obtain ⟨less, found, smaller⟩ := ih
      obtain ⟨least, lowest, smallest⟩ := lower found refers
      exact ⟨least, lowest, Nat.lt_trans smallest smaller⟩
  obtain ⟨less, found, smaller⟩ := descends cycle
  rw [same] at found
  cases found
  exact Nat.lt_irrefl _ smaller

/-- What holds of a name as soon as it holds of all that the name refers to holds of every acyclic name. The
induction is on the declared names that are not on the path so far. -/
theorem induction {holds : String → Prop}
    (step : ∀ name, Acyclic definitions name → (∀ target, Refers definitions name target → holds target) → holds name)
    (acyclic : Acyclic definitions name) : holds name := by
  suffices along : ∀ room name (path : Guard), Acyclic definitions name → path.free definitions < room →
      (∀ passed ∈ path, TransGen (Refers definitions) passed name) → holds name from
    along _ name [] acyclic (Nat.lt_succ_self _) (by simp)
  intro room
  induction room with
  | zero => exact fun _ _ _ impossible => absurd impossible (Nat.not_lt_zero _)
  | succ room ih =>
    intro name path acyclic few passed
    apply step name acyclic
    intro target refers
    have declared := refers
    obtain ⟨body, given, _⟩ := declared
    have absent : name ∉ path := fun among => acyclic.irreflexive (passed name among)
    have fewer := Guard.free_cons_lt absent (Members.mem_of_given? given)
    apply ih target (name :: path) (acyclic.step refers) (by omega)
    intro earlier among
    rcases List.mem_cons.mp among with rfl | before
    · exact .single refers
    · exact (passed earlier before).tail refers

/-- The same, with all that the name leads to. -/
theorem induction_trans {holds : String → Prop}
    (step : ∀ name, Acyclic definitions name → (∀ target, TransGen (Refers definitions) name target → holds target) →
      holds name)
    (acyclic : Acyclic definitions name) : holds name := by
  have everywhere : ∀ reached, ReflTransGen (Refers definitions) name reached → holds reached := by
    refine @induction _ _ (fun name => ∀ reached, ReflTransGen (Refers definitions) name reached → holds reached)
      (fun name acyclic below => ?_) acyclic
    have strictly : ∀ target, TransGen (Refers definitions) name target → holds target := by
      intro target path
      obtain ⟨middle, refers, rest⟩ := TransGen.head'_iff.mp path
      exact below middle refers target rest
    intro reached path
    rcases ReflTransGen.cases_head path with rfl | ⟨middle, refers, rest⟩
    · exact step name acyclic strictly
    · exact below middle refers reached rest
  exact everywhere name .refl

end Acyclic
end FieldTree
