import FieldTree.Proofs.Resolution.PairedWalk

/-! A pairing carried through the resolution of a document. Between two definitions no name is under guard. -/

namespace FieldTree

/-- The definitions that a root declares. -/
abbrev Members.declarations (root : Members) : Members := Json.members (root.given? "definitions")

/-- Everything the definitions of a document can lead to fits. -/
structure Context.Begins {σ : Type} (context : Context σ) (fits : Guard → Json → Prop) : Prop where
  entries : ∀ entry ∈ context.definitions, fits [] entry.2
  bodies : ∀ target body, context.definitions.given? target = some (.object body) → fits [target] (.object body)

namespace Document
open Resolve Walker Node

/-- What a document whose root is known gives to the resolution. -/
def context {σ : Type} (root : Members) (selector : Selector σ) : Context σ :=
  ⟨root.declarations, selector⟩

/-- The run that resolves a document. -/
def run {σ : Type} (bound : Nat) (selector : Selector σ) (start : σ) (root : Members) :
    Except Failure Schema × State σ :=
  (schema (context root selector) (walker (context root selector) bound) root).outcome ⟨[], [], start, []⟩

theorem resolveWithin_of_root {σ : Type} {document : Document} {root : Members} (rooted : document.root = .ok root)
    (bound : Nat) (selector : Selector σ) (start : σ) :
    document.resolveWithin bound selector start =
      ⟨(run bound selector start root).1, (run bound selector start root).2.selector,
        (run bound selector start root).2.events.reverse⟩ := by
  simp only [resolveWithin, rooted]
  rfl

variable {σ τ : Type} {pairing : Pairing σ τ} {fits : Guard → Json → Prop} {chooses : Prop} {context : Context σ}
  {context' : Context τ} {first : Walker σ} {second : Walker τ}

theorem plainDefinition_runs (paired : Walker.Paired pairing fits first second) (name : String) {node : Json}
    (fit : fits [] node) :
    pairing.Runs [] (plainDefinition first name node) (plainDefinition second name node) := by
  apply (paired.definition fit).bind
  intro field
  cases field with
  | none => exact .log _
  | some field =>
    apply (Pairing.Runs.cached? name).bind
    intro known
    split
    · exact .log _
    · exact .store field (by simp)

theorem aliasDefinition_runs (paired : Walker.Paired pairing fits first second)
    (contexts : pairing.Contexts context context' chooses) (begins : context.Begins fits) (name : String)
    {node : Members} (fit : fits [] (.object node)) :
    pairing.Runs [] (aliasDefinition context first name node) (aliasDefinition context' second name node) := by
  unfold aliasDefinition
  apply (Pairing.Runs.orFail (target_told node)).bind
  intro target
  apply (Pairing.Runs.cached? target).bind
  intro known
  split
  · exact (paired.definition fit).bind fun field => storeUnlessNothing_runs (by simp) field
  · rw [contexts.definitions]
    split
    next body given =>
      split
      · exact .fail _ rfl
      · have walks : pairing.Runs []
            (Resolve.guarded target fun entered =>
              if entered then first.definition (.named (some name)) (.object body) else fail (.mutualAlias name target))
            (Resolve.guarded target fun entered =>
              if entered then second.definition (.named (some name)) (.object body) else fail (.mutualAlias name target)) :=
          Pairing.Runs.guarded (fun held => by cases held) fun _ => paired.definition (begins.bodies target body given)
        exact walks.bind fun field => storeUnlessNothing_runs (by simp) field
    next => exact .fail _ rfl

theorem definition_runs (paired : Walker.Paired pairing fits first second)
    (contexts : pairing.Contexts context context' chooses) (begins : context.Begins fits) (name : String)
    {node : Json} (fit : fits [] node) :
    pairing.Runs [] (definition context first name node) (definition context' second name node) := by
  apply (Pairing.Runs.log _).bind
  intro _
  cases node with
  | object members =>
    dsimp only
    split
    · exact aliasDefinition_runs paired contexts begins name fit
    · exact plainDefinition_runs paired name fit
  | _ => exact plainDefinition_runs paired name fit

theorem definitions_runs (paired : Walker.Paired pairing fits first second)
    (contexts : pairing.Contexts context context' chooses) (begins : context.Begins fits) (entries : Members)
    (fit : ∀ entry ∈ entries, fits [] entry.2) :
    pairing.Runs [] (definitions context first entries) (definitions context' second entries) := by
  induction entries with
  | nil => exact .pure _
  | cons entry rest ih =>
    exact (definition_runs paired contexts begins entry.1 (fit entry List.mem_cons_self)).bind fun _ =>
      ih fun entry later => fit entry (List.mem_cons_of_mem _ later)

theorem properties_runs (paired : Walker.Paired pairing fits first second) (requiredNames : List String)
    (inObject : Bool) (members : Members) (fit : ∀ entry ∈ members, fits [] entry.2) :
    pairing.Runs [] (properties first requiredNames inObject members)
      (properties second requiredNames inObject members) := by
  induction members with
  | nil => exact .pure _
  | cons entry rest ih =>
    exact (paired.property (fit entry List.mem_cons_self)).bind fun _ =>
      (ih fun entry later => fit entry (List.mem_cons_of_mem _ later)).bind fun _ => .pure _

theorem get_runs {α : Type} {guard : Guard} (read : Entries Field → α) :
    pairing.Runs guard (do return read (← get).cache : Resolve σ α) (do return read (← get).cache : Resolve τ α) := by
  intro state state' together
  refine .inr ⟨?_, together, by intro failure impossible; cases impossible⟩
  change Except.ok (read state.cache) = Except.ok (read state'.cache)
  rw [pairing.caches together]

theorem schema_runs (paired : Walker.Paired pairing fits first second)
    (contexts : pairing.Contexts context context' chooses) (begins : context.Begins fits) (root : Members)
    (fit : ∀ entry ∈ Json.members (root.given? "properties"), fits [] entry.2) :
    pairing.Runs [] (schema context first root) (schema context' second root) := by
  unfold schema
  rw [contexts.definitions]
  exact (definitions_runs paired contexts begins _ begins.entries).bind fun _ =>
    (properties_runs paired _ _ _ fit).bind fun _ => get_runs _

/-- Two runs of a document are alike if their selectors agree wherever a node has to choose. -/
theorem run_alongside {root : Members} {selector : Selector σ} {selector' : Selector τ} {relates : σ → τ → Prop}
    {fits : Json → Prop}
    (contexts : (Pairing.alongside relates).Contexts (Document.context root selector) (Document.context root selector')
      chooses)
    (leads : ∀ {guard node}, fits (.object node) →
      (Document.context root selector).Leads (fun _ => fits) chooses guard node)
    (fit : ∀ key, ∀ entry ∈ Json.members (root.given? key), fits entry.2) {start : σ} {start' : τ}
    (related : relates start start') (bound : Nat) :
    (run bound selector start root).1 = (run bound selector' start' root).1 ∧
      (Pairing.alongside relates).states [] (run bound selector start root).2 (run bound selector' start' root).2 := by
  have begins : (Document.context root selector).Begins fun _ => fits :=
    ⟨fit "definitions", fun target body given => fit "definitions" _ (Members.mem_of_given? given)⟩
  have runs := schema_runs (walker_paired contexts leads trivial bound) contexts begins root (fit "properties")
  have together : (Pairing.alongside relates).states [] ⟨[], [], start, []⟩ ⟨[], [], start', []⟩ :=
    ⟨⟨rfl, rfl⟩, rfl, rfl, related⟩
  obtain ⟨same, after, _⟩ := runs.alike (fun _ => id) together
  exact ⟨same, after⟩

end Document
end FieldTree
