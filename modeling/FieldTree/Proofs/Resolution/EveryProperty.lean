import FieldTree.Proofs.Resolution.Nesting
import FieldTree.Proofs.Resolution.PropertySide

/-! The side of the properties loses nothing. Of every node that does not fail comes a field, of the name that its place
gives to it, and the fields of an object stand for the properties that its node lists, in their order, whatever those
lead to. So the complaint that nothing came of a property is never made. -/

namespace FieldTree

variable {σ : Type}

/-- The complaint that nothing came of a property. -/
def Failure.unresolved (name : Option String) : Failure := .document (.semantic (.unresolved name))

/-- One resolution beside itself, that never ends with a property of which nothing came. -/
def Pairing.resolved (σ : Type) : Pairing σ σ :=
  { Pairing.settled σ with
    failures := fun failure => ∀ name, failure ≠ .unresolved name
    errors := by
      rintro error own name ⟨⟩
      cases own
    choices := by simp [Failure.unresolved]
    fields := by simp [Failure.unresolved] }

namespace Walker
open Resolve

theorem choose_resolved (context : Context σ) (guard : Guard) (count : Nat) :
    (Pairing.resolved σ).Runs guard (choose context count) (choose context count) := by
  intro state state' paired
  obtain ⟨same, after, _⟩ := (choose_settled context guard count).alike (fun _ => id) paired
  refine .inr ⟨same, after, ?_⟩
  intro failure fails
  obtain ⟨error, rfl⟩ := choice_of_outcome_choose fails
  exact (Pairing.resolved σ).choices error

theorem contexts_resolved (context : Context σ) : (Pairing.resolved σ).Contexts context context True :=
  ⟨rfl, fun _ guard count _ => choose_resolved context guard count⟩

theorem walker_resolved (context : Context σ) (bound : Nat) :
    Paired (Pairing.resolved σ) (fun _ _ => True) (walker context bound) (walker context bound) :=
  walker_paired (contexts_resolved context) (fun _ => ⟨fun _ _ => trivial, fun _ _ _ _ => trivial, fun _ => trivial⟩)
    (by simp [Pairing.resolved, Failure.unresolved, Failure.tooDeep]) bound

/-- From any state, whatever is under guard, a property fails for another reason. -/
theorem property_ne_unresolved (context : Context σ) (bound : Nat) (site : Site) (node : Json) (state : State σ)
    (name : Option String) : (((walker context bound).property site node).outcome state).1 ≠ .error (.unresolved name) := by
  intro fails
  have runs := @(walker_resolved context bound).property state.guard site node trivial
  exact (runs.alike (fun _ => id) ⟨rfl, rfl⟩).2.2 _ fails name rfl

end Walker

/-- A property that lists properties is an object with what it requires of them. -/
theorem Node.Lists.shape_of_property {node properties : Members} (lists : Lists node properties) (site : Site) :
    Shape.ofNode .property site (.object node) =
      .group (Shape.listed site.name (requiredNames node) properties)
        (.object site.name site.required (requiredNames node)) := by
  obtain ⟨plain, single, typed, given⟩ := lists
  have listed : ∀ site : Site, Shape.ofObject .property site node =
      .group (Shape.listed site.name (requiredNames node) properties)
        (.object site.name site.required (requiredNames node)) := by
    intro site
    simp only [Shape.ofObject, single, given]
  have shown : Members.gives node "properties" = true := by simp only [Members.gives, given, Option.isSome_some]
  simp only [Shape.ofNode, plain, shown, Bool.false_eq_true, ite_false, ite_true]
  split
  next told => simp only [Shape.ofTyped, typed told, Shape.ofType, listed site]
  next => simp only [single, listed]

section
variable {context : Context σ} {before after : State σ} {fields : List Field}

/-- On the side of the properties the fields are those of the nodes, one for each. -/
theorem Yields.names_of_property {inner : List Inner} (yields : Yields context (.all .property inner) before fields after) :
    fields.map Field.name = inner.map fun one => one.site.name :=
  yields.whole (.of_property rfl) (.of_property rfl)

/-- What comes of a property that lists properties is an object with a field for each. -/
theorem Yields.of_lists {site : Site} {node properties : Members} {field : Field} (lists : Node.Lists node properties)
    (yields : Yields context (.node .property site (.object node)) before [field] after) :
    ∃ children requiredNames, field = .object site.name site.required children requiredNames ∧
      children.map Field.name = properties.map fun entry => some entry.1 := by
  obtain ⟨children, made, each, makes, same, _⟩ := yields.walked (lists.shape_of_property site)
  cases makes
  cases same
  refine ⟨children, _, rfl, ?_⟩
  have names := each.names_of_property
  rw [Shape.listed, List.map_map] at names
  exact names

end

namespace Document
open Resolve

theorem result_ne_unresolved (bound : Nat) (selector : Selector σ) (start : σ) (document : Document)
    (name : Option String) : (document.resolveWithin bound selector start).result ≠ .error (.unresolved name) := by
  cases rooted : document.root with
  | error cause => simp [resolveWithin, rooted, Failure.unresolved]
  | ok root =>
    have runs := schema_runs (Walker.walker_resolved (context root selector) bound)
      (Walker.contexts_resolved (context root selector)) ⟨fun _ _ => trivial, fun _ _ _ => trivial⟩ root
      fun _ _ => trivial
    have fresh : (Pairing.resolved σ).states [] ⟨[], [], start, []⟩ ⟨[], [], start, []⟩ := ⟨rfl, rfl⟩
    obtain ⟨_, _, fails⟩ := runs.alike (fun _ => id) fresh
    rw [resolveWithin_of_root rooted]
    exact fun failed => fails _ failed name rfl

theorem names_of_properties {bound : Nat} {selector : Selector σ} {start : σ} {document : Document} {schema : Schema}
    (resolved : (document.resolveWithin bound selector start).result = .ok schema) :
    ∃ root, document.root = .ok root ∧
      schema.properties.map Field.name = (Json.members (root.given? "properties")).map fun entry => some entry.1 := by
  obtain ⟨root, middle, properties, after, rooted, passes, rfl⟩ := passes_of_resolved resolved
  refine ⟨root, rooted, ?_⟩
  have names := passes.properties.names_of_property
  rw [outer, List.map_map] at names
  exact names

/-- No property is lost, renamed or moved. A resolution never ends with the complaint that nothing came of a property,
nor does the walk of a property, in whatever state it is begun. The properties of the schema have the names of those of
the root, in their order. What comes of a property has the name of its place, and it is an object with a field for each
of the properties that its node lists, in their order, if the node tells of no type but that of objects, of no
reference and of no combination. -/
theorem properties_are_whole (bound : Nat) (selector : Selector σ) (start : σ) (document : Document) :
    (∀ name, (document.resolveWithin bound selector start).result ≠ .error (.document (.semantic (.unresolved name)))) ∧
    (∀ schema, (document.resolveWithin bound selector start).result = .ok schema → ∃ root, document.root = .ok root ∧
      schema.properties.map Field.name = (Json.members (root.given? "properties")).map fun entry => some entry.1) ∧
    (∀ (context : Context σ) (site : Site) (node : Json) (before : State σ),
      (∀ name, (((walker context bound).property site node).outcome before).1 ≠
        .error (.document (.semantic (.unresolved name)))) ∧
      ∀ field after, ((walker context bound).property site node).Ends before field after → field.name = site.name ∧
        ∀ members properties, node = .object members → Node.Lists members properties →
          ∃ fields requiredNames, field = .object site.name site.required fields requiredNames ∧
            fields.map Field.name = properties.map fun entry => some entry.1) := by
  refine ⟨result_ne_unresolved bound selector start document, fun schema resolved => names_of_properties resolved,
    fun context site node before => ⟨Walker.property_ne_unresolved context bound site node before, ?_⟩⟩
  intro field after ends
  have yields : Yields context (.node .property site node) before [field] after :=
    Walker.sound_walker context bound (ends_bind.mpr ⟨field, after, ends, ends_pure.mpr ⟨rfl, rfl⟩⟩)
  refine ⟨yields.named field List.mem_cons_self, ?_⟩
  rintro members properties rfl lists
  exact yields.of_lists lists

/-- An object that has a loop among its properties. -/
def withLoop : Members :=
  [("properties", .object [("loop", .object [("$ref", .string "#/definitions/Loop")]),
    ("text", .object [("type", .string "string")])])]

/-- A root that asks for it, and for a list of loops. -/
def loops : Members :=
  [("definitions", .object [("Loop", .object [("type", .string "object"),
      ("properties", .object [("next", .object [("$ref", .string "#/definitions/Loop")])])])]),
    ("properties", .object [
      ("list", .object [("type", .string "array"), ("items", .object [("$ref", .string "#/definitions/Loop")])]),
      ("entry", .object withLoop)])]

/-- Both properties of the root come out, and both of the object wherever a loop is known. -/
theorem properties_are_whole_loops :
    (∃ schema, ((Document.value (.object loops)).resolveWithin 10 Selector.first ()).result = .ok schema ∧
      schema.properties.map Field.name = [some "list", some "entry"]) ∧
    ∃ field after, ((walker (context loops Selector.first) 10).property (.named (some "entry")) (.object withLoop)).Ends
        ⟨[("Loop", .object (some "Loop") none [] [])], [], (), []⟩ field after ∧
      ∃ fields requiredNames, field = .object (some "entry") none fields requiredNames ∧
        fields.map Field.name = [some "loop", some "text"] := by
  obtain ⟨_, listed, walked⟩ := properties_are_whole 10 Selector.first () (.value (.object loops))
  constructor
  · obtain ⟨schema, resolved⟩ :
        ∃ schema, ((Document.value (.object loops)).resolveWithin 10 Selector.first ()).result = .ok schema :=
      exists_of_toBool (by decide +kernel)
    obtain ⟨root, rooted, names⟩ := listed schema resolved
    cases rooted
    exact ⟨schema, resolved, names⟩
  · obtain ⟨field, made⟩ : ∃ field, (((walker (context loops Selector.first) 10).property (.named (some "entry"))
        (.object withLoop)).outcome ⟨[("Loop", .object (some "Loop") none [] [])], [], (), []⟩).1 = .ok field :=
      exists_of_toBool (by decide +kernel)
    have ends : Ends _ _ field _ := Prod.ext made rfl
    refine ⟨field, _, ends, ?_⟩
    exact ((walked _ _ _ _).2 field _ ends).2 withLoop _ rfl ⟨by decide, by decide, by decide, rfl⟩

end Document
end FieldTree
