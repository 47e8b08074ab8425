import FieldTree.Proofs.Resolution.Cached
import FieldTree.Proofs.Resolution.Expansion
import FieldTree.Proofs.Resolution.Inversion

/-! What is left out of an object. A name under guard leads to all that the node at hand refers to, so a reference that
is not followed closes a cycle. From a property that leads to no cycle a field comes, whatever is cached or under guard
when it is met. -/

namespace FieldTree

variable {σ : Type}

/-- Nothing is left out: of the node comes a field, and of nodes inside another one field each. -/
def Task.Whole : Task → List Field → Prop
  | .node .., fields => ∃ field, fields = [field]
  | .all _ inner, fields => fields.map Field.name = inner.map fun one => one.site.name
  | .merge .., _ => True

section
variable {context : Context σ} {before after : State σ} {fields : List Field}

theorem Yields.whole {task : Task} (yields : Yields context task before fields after)
    (behind : task.Behind context.definitions before.guard) (acyclic : task.Acyclic context.definitions) :
    task.Whole fields := by
  induction yields with
  | leaf => exact ⟨_, rfl⟩
  | group => exact ⟨_, rfl⟩
  | dropped shape _ makes ih =>
    have leads := Task.leads_group shape
    obtain ⟨needs, rfl⟩ := Making.make_none makes
    have none : [] = _ := ih (behind.leads leads) (acyclic.leads leads)
    exact absurd (List.map_eq_nil_iff.mp none.symm) ((Shape.ofNode_group shape).2.1 needs)
  | reused => exact ⟨_, rfl⟩
  | @unexpanded _ _ _ _ target _ shape refers _ held =>
    -- The target is under guard and so leads to all that the node refers to, itself among it.
    have among := Task.mem_references shape refers
    exact absurd (behind rfl target held target among) (acyclic rfl target among).irreflexive
  | @extracted _ _ other _ target _ _ _ _ shape refers _ _ given _ ih =>
    have among := Task.mem_references shape refers
    have entered := behind.enter among given { other with name := some target }
    obtain ⟨field, rfl⟩ := ih entered ((acyclic rfl target among).body given _)
    exact ⟨field.rename other.name, rfl⟩
  | declared => exact ⟨_, rfl⟩
  | empty => exact ⟨_, rfl⟩
  | @first _ _ name _ _ _ _ _ _ _ _ _ shape listed taken _ ih =>
    obtain ⟨answer, used⟩ := Combinator.exists_used_of_take taken
    have leads := Task.leads_branch shape listed used .definition (.named name) rfl
    rw [(Walker.same_of_take taken).1] at ih
    exact ih (behind.leads leads) (acyclic.leads leads)
  | merged => exact ⟨_, rfl⟩
  | scalar _ _ _ _ _ _ _ ih => exact ih (.of_property rfl) (.of_property rfl)
  | allNil => rfl
  | allCons here _ ihHere ihLater =>
    obtain ⟨field, rfl⟩ := ihHere (behind.leads Task.leads_here) (acyclic.leads Task.leads_here)
    rw [State.guard_noted, here.extends.guard] at ihLater
    have others := ihLater (behind.leads Task.leads_later) (acyclic.leads Task.leads_later)
    exact congrArg₂ List.cons (here.named field List.mem_cons_self) others
  | mergeNil => trivial
  | mergeInline => trivial
  | mergeReference => trivial

/-- The fields keep the order of the nodes that they come of. -/
theorem Yields.names_sublist {side : Side} {inner : List Inner}
    (yields : Yields context (.all side inner) before fields after) :
    (fields.map Field.name).Sublist (inner.map fun one => one.site.name) := by
  induction inner generalizing before fields with
  | nil =>
    cases yields
    exact List.nil_sublist _
  | cons one rest ih =>
    cases yields with
    | allCons here later =>
      obtain ⟨child, rfl, _⟩ := here.walks.child
      cases child with
      | none => exact (ih later).cons _
      | some field =>
        have named : field.name = one.site.name := here.named field List.mem_cons_self
        simp only [Option.toList_some, List.singleton_append, List.map_cons, named]
        exact (ih later).cons_cons _

theorem Yields.lone {side : Side} {one : Inner} {field : Field} {rest : List Field}
    (yields : Yields context (.all side [one]) before (field :: rest) after) : rest = [] := by
  have short := yields.names_sublist.length_le
  simpa using short

theorem Yields.name_mem {side : Side} {inner : List Inner}
    (yields : Yields context (.all side inner) before fields after)
    (behind : Task.Behind context.definitions before.guard (.all side inner)) {one : Inner} (among : one ∈ inner)
    (acyclic : ∀ target ∈ one.node.references, Acyclic context.definitions target) :
    one.site.name ∈ fields.map Field.name := by
  induction inner generalizing before fields with
  | nil => cases among
  | cons first rest ih =>
    cases yields with
    | allCons here later =>
      rw [List.map_append]
      rcases List.mem_cons.mp among with rfl | further
      · obtain ⟨field, rfl⟩ := here.whole (behind.leads Task.leads_here) fun _ => acyclic
        rw [← here.named field List.mem_cons_self]
        exact List.mem_append_left _ (List.mem_map_of_mem List.mem_cons_self)
      · have grows := here.extends
        refine List.mem_append_right _ (ih later ?_ further)
        rw [State.guard_noted, grows.guard]
        exact behind.leads Task.leads_later

end

/-- The node lists properties. It is no reference and no combination, and tells no type but that of objects. -/
structure Node.Lists (node properties : Members) : Prop where
  plain : isReference node = false
  single : combinator? node = none
  typed : hasType node = true → type? node = some .object
  given : node.given? "properties" = some (.object properties)

theorem Node.Lists.shape {node properties : Members} (lists : Lists node properties) (site : Site) :
    ∃ required, Shape.ofNode .definition site (.object node) =
      .group (Shape.listed site.name (requiredNames node) properties)
        (.object site.name required (requiredNames node)) := by
  obtain ⟨plain, single, typed, given⟩ := lists
  have listed : ∀ site : Site, Shape.ofObject .definition site node =
      .group (Shape.listed site.name (requiredNames node) properties)
        (.object site.name site.required (requiredNames node)) := by
    intro site
    simp only [Shape.ofObject, single, given]
  simp only [Shape.ofNode]
  split
  next told =>
    refine ⟨site.required, ?_⟩
    simp only [Shape.ofTyped, typed told, Shape.ofType, listed site]
  next =>
    refine ⟨none, ?_⟩
    simp only [plain, Bool.false_eq_true, ite_false, single]
    exact listed (.named site.name)

/-- The fields come of these properties, in their order, and none is missing but such as lead to a cycle. -/
structure Members.Kept (definitions properties : Members) (fields : List Field) : Prop where
  order : (fields.map Field.name).Sublist (properties.map fun entry => some entry.1)
  present : ∀ entry ∈ properties, (∀ target ∈ entry.2.references, Acyclic definitions target) →
    some entry.1 ∈ fields.map Field.name

/-- What comes of a definition that lists properties is an object that keeps them. -/
def Members.Keeps (definitions : Members) (name : String) (field : Field) : Prop :=
  ∀ {node properties}, definitions.given? name = some (.object node) → Node.Lists node properties →
    ∃ required fields requiredNames, field = .object (some name) required fields requiredNames ∧
      definitions.Kept properties fields

theorem Context.keeps (context : Context σ) : context.Makes context.definitions.Keeps := by
  intro name body site before fields after source named behind yields field among node properties given lists
  cases source with
  | own given' =>
    rw [given] at given'
    cases given'
    obtain ⟨required, shape⟩ := lists.shape site
    have leads := Task.leads_group shape
    obtain ⟨children, made, each, makes, rfl, _⟩ := yields.walked shape
    cases makes
    obtain rfl := List.mem_singleton.mp among
    refine ⟨_, _, _, congrArg (Field.object · _ _ _) named, ?_, ?_⟩
    · have order := each.names_sublist
      rw [Shape.listed, List.map_map] at order
      exact order
    · intro entry listed acyclic
      exact each.name_mem (behind.leads leads) (List.mem_map_of_mem listed) acyclic
  | behind _ given' reference =>
    rw [given] at given'
    cases given'
    rw [lists.plain] at reference
    cases reference

namespace Document

variable {document : Document} {selector : Selector σ} {start : σ} {bound : Nat} {schema : Schema}

/-- A definition that lists properties is in the schema as an object with fields for them, in their order. Only a
property that leads to a cycle of references can be missing. -/
theorem properties_kept (wellFormed : document.WellFormed)
    (resolved : (document.resolveWithin bound selector start).result = .ok schema) {name : String}
    {node properties : Members} (declared : document.declarations.given? name = some (.object node))
    (lists : Node.Lists node properties) :
    ∃ required fields requiredNames,
      Entries.get? schema.definitions name = some (.object (some name) required fields requiredNames) ∧
      document.declarations.Kept properties fields := by
  obtain ⟨root, middle, listed, after, rooted, passes, rfl⟩ := passes_of_resolved resolved
  have distinct := distinct_declarations wellFormed
  rw [declarations_of_root rooted] at *
  have something : ∀ {before after}, ¬Yields (context root selector)
      (.node .definition (.named (some name)) (.object node)) before [] after := by
    intro before after nothing
    obtain ⟨required, shape⟩ := lists.shape (.named (some name))
    obtain ⟨_, made, _, makes, none, _⟩ := nothing.walked shape
    cases makes
    cases none
  have plain : (Json.object node).isPlain = true := by simp only [Json.isPlain, lists.plain, Bool.not_false]
  have known := passes.definitions.isSome_of_mem (Members.mem_of_given? declared) plain something
  obtain ⟨field, found⟩ := Option.isSome_iff_exists.mp (passes.properties.extends.isSome known)
  obtain ⟨required, fields, requiredNames, rfl, kept⟩ :=
    passes.every distinct (Context.keeps _) name field found declared lists
  exact ⟨required, fields, requiredNames, found, kept⟩

/-- Of the loop beside other definitions, only the property that closes it can be missing. -/
theorem properties_kept_besideLoop : ∃ schema required fields requiredNames,
    (besideLoop.resolveWithin 10 Selector.first ()).result = .ok schema ∧
      Entries.get? schema.definitions "Loop" = some (.object (some "Loop") required fields requiredNames) ∧
      some "outer" ∈ fields.map Field.name := by
  obtain ⟨schema, resolved⟩ : ∃ schema, (besideLoop.resolveWithin 10 Selector.first ()).result = .ok schema :=
    exists_of_toBool (by decide +kernel)
  have wellFormed : besideLoop.WellFormed := by
    unfold Document.WellFormed besideLoop
    decide
  have declared : besideLoop.declarations.given? "Loop" = some (.object [("type", .string "object"),
      ("properties", .object [("next", .object [("$ref", .string "#/definitions/Loop")]),
        ("outer", .object [("$ref", .string "#/definitions/Outer")])])]) := rfl
  obtain ⟨required, fields, requiredNames, found, kept⟩ :=
    properties_kept wellFormed resolved declared ⟨by decide, by decide, by decide, rfl⟩
  have acyclic : Acyclic besideLoop.declarations "Outer" :=
    @Acyclic.of_ranks _ _ [("Outer", 1), ("Tags", 0)] (by decide) (by decide)
  refine ⟨schema, required, fields, requiredNames, resolved, found, ?_⟩
  apply kept.present ("outer", .object [("$ref", .string "#/definitions/Outer")]) (by simp)
  intro target among
  rw [show target = "Outer" from List.mem_singleton.mp among]
  exact acyclic

end Document
end FieldTree
