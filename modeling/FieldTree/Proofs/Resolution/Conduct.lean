import FieldTree.Proofs.Resolution.Definitions

/-! What holds of every run, also of one that fails: a property of the states that each step keeps, and the failures
that can end the run. Nodes may be known to be barren, references of which nothing ever comes; then nothing needs to be
said about what is stored under the names of definitions that are barren. -/

namespace FieldTree

/-- The states that a run is confined to, and the failures in which it may end. -/
structure Conduct (σ : Type) where
  states : State σ → Prop
  failures : Failure → Prop
  logged : ∀ {state} event, states state → states (state.logged event)
  under : ∀ {state} guard, states state → states (state.under guard)
  fails : ∀ error, failures (.document (.semantic error))

/-- Only collections have no properties to add, and they are added themselves. -/
theorem Field.exists_added (field : Field) (name : Option String) (branch : Members) :
    ∃ fields, field.added name branch = .ok fields := by
  unfold added
  split
  · exact ⟨_, rfl⟩
  next other =>
    cases field with
    | scalar => exact ⟨_, rfl⟩
    | array => simp [isCollection, rename, kind, Kind.isCollection] at other
    | object => exact ⟨_, rfl⟩
    | map => simp [isCollection, rename, kind, Kind.isCollection] at other

namespace Conduct
open Resolve Walker

variable {σ α β : Type} (conduct : Conduct σ)

def Allows (returns : α → Prop) : Except Failure α → Prop
  | .ok value => returns value
  | .error failure => conduct.failures failure

/-- Started from a state within the conduct, the resolution stays within it, whether it returns such a value or fails. -/
def Keeps (returns : α → Prop) (resolve : Resolve σ α) : Prop :=
  ∀ state, conduct.states state →
    conduct.Allows returns (resolve.outcome state).1 ∧ conduct.states (resolve.outcome state).2

/-- The fields that may be known under a name. -/
def Known (name : String) (found : Option Field) : Prop := ∃ state, conduct.states state ∧ state.cache.get? name = found

variable {conduct} {returns : α → Prop} {returns' : β → Prop}

theorem Keeps.pure {value : α} (returned : returns value) : conduct.Keeps returns (Pure.pure value) :=
  fun _ within => ⟨returned, within⟩

theorem Keeps.bind {first : Resolve σ α} {rest : α → Resolve σ β} (keeps : conduct.Keeps returns first)
    (later : ∀ value, returns value → conduct.Keeps returns' (rest value)) :
    conduct.Keeps returns' (first >>= rest) := by
  intro state within
  obtain ⟨allowed, within'⟩ := keeps state within
  simp only [outcome_bind]
  cases ended : first.outcome state with
  | mk result middle =>
    simp only [ended] at allowed within'
    cases result with
    | ok value => exact later value allowed middle within'
    | error failure => exact ⟨allowed, within'⟩

theorem Keeps.weaken {returns' : α → Prop} {resolve : Resolve σ α} (keeps : conduct.Keeps returns resolve)
    (weaker : ∀ value, returns value → returns' value) : conduct.Keeps returns' resolve := by
  intro state within
  obtain ⟨allowed, within'⟩ := keeps state within
  refine ⟨?_, within'⟩
  cases result : (resolve.outcome state).1 with
  | ok value =>
    rw [result] at allowed
    exact weaker value allowed
  | error failure =>
    rw [result] at allowed
    exact allowed

theorem Keeps.anyway {resolve : Resolve σ α} (keeps : conduct.Keeps returns resolve) :
    conduct.Keeps (fun _ => True) resolve :=
  keeps.weaken fun _ _ => trivial

theorem Keeps.ends {resolve : Resolve σ α} {value : α} {before after : State σ} (keeps : conduct.Keeps returns resolve)
    (ends : resolve.Ends before value after) (within : conduct.states before) : returns value ∧ conduct.states after := by
  have kept := keeps before within
  rwa [ends] at kept

theorem Keeps.fail (error : SemanticError) : conduct.Keeps returns (Resolve.fail error) :=
  fun _ within => ⟨conduct.fails error, within⟩

theorem Keeps.orFail (result : Except SemanticError α) :
    conduct.Keeps (fun value => result = .ok value) (Walker.orFail result) := by
  cases result with
  | ok value => exact .pure rfl
  | error error => exact .fail error

theorem Keeps.log (event : Event) : conduct.Keeps (fun _ => True) (Resolve.log event) :=
  fun _ within => ⟨trivial, conduct.logged event within⟩

theorem Keeps.cached? (name : String) : conduct.Keeps (conduct.Known name) (Resolve.cached? name) :=
  fun state within => ⟨⟨state, within, rfl⟩, within⟩

theorem Keeps.guarded {name : String} {body : Bool → Resolve σ α}
    (keeps : ∀ entered, conduct.Keeps returns (body entered)) : conduct.Keeps returns (Resolve.guarded name body) := by
  intro state within
  obtain ⟨allowed, within'⟩ := keeps _ _ (conduct.under (state.guard.enter name).2 within)
  simp only [outcome_guarded]
  exact ⟨allowed, conduct.under _ within'⟩

/-- A name under which any field may be kept. -/
def Stores (conduct : Conduct σ) (name : String) : Prop :=
  ∀ state field, conduct.states state → conduct.states (state.stored name field)

theorem Stores.keeps {name : String} (stores : conduct.Stores name) (field : Field) :
    conduct.Keeps (fun _ => True) (Resolve.store name field) :=
  fun state within => ⟨trivial, stores state field within⟩

/-- What a context may do within a conduct: choose among branches, if there are any, and keep what comes of its
definitions, unless they are barren. A barren node refers to a name that is never cached, and to a barren definition. -/
structure Permits (conduct : Conduct σ) (context : Context σ) (barren : Json → Prop) : Prop where
  chooses : ∀ count, 0 < count → conduct.Keeps (fun _ => True) (choose context count)
  stores : ∀ {name node}, (name, node) ∈ context.definitions → ¬barren node → conduct.Stores name
  refers : ∀ {node}, barren node → ∃ members target, node = .object members ∧ Node.hasType members = false ∧
    Node.isReference members = true ∧ Node.target members = .ok target
  unknown : ∀ {members target found}, barren (.object members) → Node.target members = .ok target →
    conduct.Known target found → found = none
  onward : ∀ {members target body}, barren (.object members) → Node.target members = .ok target →
    context.definitions.given? target = some (.object body) → barren (.object body)

/-- Nothing comes of a barren node. -/
def Fruitless (barren : Json → Prop) (node : Json) (made : Option Field) : Prop := barren node → made = none

/-- A walker that stays within the conduct, and that never makes anything of a barren node. -/
structure Walks (conduct : Conduct σ) (barren : Json → Prop) (walker : Walker σ) : Prop where
  definition : ∀ site node, conduct.Keeps (Fruitless barren node) (walker.definition site node)
  property : ∀ site node, conduct.Keeps (fun _ => True) (walker.property site node)
  typed : ∀ site node, conduct.Keeps (fun _ => True) (walker.typed site node)

variable {context : Context σ} {barren : Json → Prop} {walker : Walker σ}

theorem Walks.child (walks : conduct.Walks barren walker) (side : Side) (site : Site) (node : Json) :
    conduct.Keeps (fun _ => True) (walker.child side site node) := by
  cases side with
  | definition => exact (walks.definition site node).anyway
  | property => exact (walks.property site node).bind fun _ _ => .pure trivial

theorem Permits.select (permits : conduct.Permits context barren) (name : Option String) (combinator : Combinator)
    (branches : List Members) : conduct.Keeps (fun _ => True) (select context name combinator branches) := by
  rw [select_eq]
  cases branches with
  | nil => exact .fail _
  | cons branch rest =>
    exact (permits.chooses _ (Nat.succ_pos _)).bind fun index _ => (Keeps.log _).bind fun _ _ => .pure trivial

theorem Permits.take (permits : conduct.Permits context barren) (name : Option String) (combinator : Combinator)
    (branches : List Members) : conduct.Keeps (fun _ => True) (take context name combinator branches) := by
  unfold Walker.take
  split
  · exact .pure trivial
  · exact (permits.select name combinator branches).bind fun _ _ => .pure trivial

/-! References -/

theorem Walks.extract (walks : conduct.Walks barren walker) (permits : conduct.Permits context barren)
    {members : Members} {target : String} (refers : Node.target members = .ok target) (site : Site) :
    conduct.Keeps (Fruitless barren (.object members)) (extract context walker target site) := by
  unfold Walker.extract
  split
  next body given =>
    refine (walks.definition _ _).bind fun made fruitless => ?_
    have returned : Fruitless barren (.object members) made :=
      fun node_barren => fruitless (permits.onward node_barren refers given)
    cases made with
    | none => exact .pure returned
    | some field =>
      have fruitful : ¬barren (.object body) := fun body_barren => by cases fruitless body_barren
      exact ((permits.stores (Members.mem_of_given? given) fruitful).keeps field).bind fun _ _ => .pure returned
  next => exact .fail _

theorem Walks.definitionReference (walks : conduct.Walks barren walker) (permits : conduct.Permits context barren)
    (site : Site) (members : Members) :
    conduct.Keeps (Fruitless barren (.object members)) (definitionReference context walker site members) := by
  unfold Walker.definitionReference
  refine (Keeps.orFail _).bind fun target refers => (Keeps.cached? target).bind fun found known => ?_
  cases found with
  | some field =>
    refine (Keeps.log _).bind fun _ _ => .pure fun node_barren => ?_
    cases permits.unknown node_barren refers known
  | none =>
    have followed : conduct.Keeps (Fruitless barren (.object members)) (Resolve.guarded target fun entered =>
        if entered then Walker.extract context walker target site
        else do
          Resolve.log (.unexpanded target site.name)
          return none) := by
      refine Keeps.guarded fun entered => ?_
      cases entered with
      | true => exact walks.extract permits refers site
      | false => exact (Keeps.log _).bind fun _ _ => .pure fun _ => rfl
    exact followed.bind fun made fruitless => .pure fun node_barren => by rw [fruitless node_barren, Option.map_none]

theorem Keeps.declared (target : String) : conduct.Keeps (fun _ => True) (declared target) := by
  refine (Keeps.cached? target).bind fun found _ => ?_
  cases found with
  | some field => exact .pure trivial
  | none => exact .fail _

theorem Keeps.propertyReference (site : Site) (node : Members) :
    conduct.Keeps (fun _ => True) (propertyReference site node) := by
  rw [propertyReference_eq]
  exact (Keeps.orFail _).bind fun target _ => (Keeps.declared target).bind fun field _ => (Keeps.orFail _).anyway

/-! Combinations -/

theorem Walks.all (walks : conduct.Walks barren walker) (side : Side) (inner : List Inner) :
    conduct.Keeps (fun _ => True) (all walker side inner) := by
  induction inner with
  | nil => exact .pure trivial
  | cons one rest ih =>
    refine (walks.child side one.site one.node).bind fun made _ => ?_
    cases made with
    | some field => exact ih.bind fun _ _ => .pure trivial
    | none =>
      cases one.missing with
      | some event => exact (Keeps.log event).bind fun _ _ => ih
      | none => exact ih


theorem Walks.contribution (walks : conduct.Walks barren walker) (name : Option String) (branch : Members) :
    conduct.Keeps (fun _ => True) (contribution walker name branch) := by
  rw [contribution_eq]
  split
  · refine (Keeps.orFail _).bind fun target _ => (Keeps.declared target).bind fun field _ => ?_
    obtain ⟨fields, adds⟩ := field.exists_added name branch
    rw [adds]
    exact .pure trivial
  · exact walks.all .property _

theorem Walks.contributions (walks : conduct.Walks barren walker) (name : Option String) (branches : List Members) :
    conduct.Keeps (fun _ => True) (contributions walker name branches) := by
  induction branches with
  | nil => exact .pure trivial
  | cons branch rest ih =>
    exact (walks.contribution name branch).bind fun fields _ => ih.bind fun _ _ => .pure trivial

/-- A combination requires none of its fields, so an object can be made of them. -/
theorem Walks.combined (walks : conduct.Walks barren walker) (name : Option String) (branches : List Members) :
    conduct.Keeps (fun _ => True) (combined walker name branches) :=
  (walks.contributions name branches).bind fun _ _ => .pure trivial

theorem Walks.definitionBranch (walks : conduct.Walks barren walker) (permits : conduct.Permits context barren)
    (name : Option String) (node : Members) (combinator : Combinator) :
    conduct.Keeps (fun _ => True) (definitionBranch context walker name node combinator) := by
  rw [definitionBranch_eq]
  refine (Keeps.orFail _).bind fun branches _ => (permits.take name combinator branches).bind fun used _ => ?_
  cases used with
  | nil => exact .pure trivial
  | cons branch others => exact (walks.definition _ _).anyway

theorem Walks.propertyBranch (walks : conduct.Walks barren walker) (permits : conduct.Permits context barren)
    (name : Option String) (node : Members) (combinator : Combinator) :
    conduct.Keeps (fun _ => True) (propertyBranch context walker name node combinator) := by
  rw [propertyBranch_eq]
  refine (Keeps.orFail _).bind fun branches _ => ?_
  split
  · exact (permits.take name combinator branches).bind fun used _ => walks.combined name used
  · split
    · exact .fail _
    · split
      · exact .fail _
      · exact (permits.select name combinator branches).bind fun branch _ => walks.typed _ _

/-! Nodes -/

theorem Walks.perform (walks : conduct.Walks barren walker) (permits : conduct.Permits context barren) (side : Side)
    (shape : Shape) : conduct.Keeps (fun _ => True) (perform context walker side shape) := by
  cases shape with
  | wrong error => exact .fail error
  | leaf field => exact .pure trivial
  | group inner making => exact (walks.all side inner).bind fun fields _ => (Keeps.orFail _).anyway
  | reference site node =>
    cases side with
    | definition => exact (walks.definitionReference permits site node).anyway
    | property => exact (Keeps.propertyReference site node).bind fun _ _ => .pure trivial
  | combination name node combinator =>
    cases side with
    | definition => exact walks.definitionBranch permits name node combinator
    | property => exact (walks.propertyBranch permits name node combinator).bind fun _ _ => .pure trivial

theorem Walks.definitionNode (walks : conduct.Walks barren walker) (permits : conduct.Permits context barren)
    (site : Site) (node : Json) :
    conduct.Keeps (Fruitless barren node)
      (Walker.perform context walker .definition (Shape.ofNode .definition site node)) := by
  by_cases node_barren : barren node
  · obtain ⟨members, target, rfl, untyped, reference, _⟩ := permits.refers node_barren
    rw [Shape.ofNode_alias reference untyped]
    exact walks.definitionReference permits site members
  · exact (walks.perform permits _ _).weaken fun _ _ fruitful => absurd fruitful node_barren

theorem Keeps.expect (name : Option String) (made : Option Field) : conduct.Keeps (fun _ => True) (expect name made) := by
  cases made with
  | some field => exact .pure trivial
  | none => exact .fail _

/-- A walker with any bound stays within a conduct that permits what its context does. -/
theorem Permits.walks (permits : conduct.Permits context barren) (bound : Nat) :
    conduct.Walks barren (FieldTree.walker context bound) := by
  induction bound with
  | zero => exact ⟨fun _ _ => .fail _, fun _ _ => .fail _, fun _ _ => .fail _⟩
  | succ bound ih =>
    constructor
    · intro site node
      rw [definition_succ]
      exact ih.definitionNode permits site node
    · intro site node
      rw [property_succ]
      exact (ih.perform permits _ _).bind fun made _ => .expect _ made
    · intro site node
      rw [typed_succ]
      exact (ih.perform permits _ _).bind fun made _ => .expect _ made

/-! What has come to an end without a failure, told without the bound. -/

theorem Walks.carryOut (walks : conduct.Walks barren walker) (task : Task) :
    conduct.Keeps (fun _ => True) (walker.carryOut task) := by
  cases task with
  | node manner site node =>
    cases manner with
    | definition => exact (walks.definition site node).bind fun _ _ => .pure trivial
    | property => exact (walks.property site node).bind fun _ _ => .pure trivial
    | typed =>
      cases node with
      | object members => exact (walks.typed site members).bind fun _ _ => .pure trivial
      | _ => exact .fail _
  | all side inner => exact walks.all side inner
  | merge name branches => exact walks.contributions name branches

theorem Permits.yields (permits : conduct.Permits context barren) {task : Task} {before after : State σ}
    {fields : List Field} (yields : Yields context task before fields after) (within : conduct.states before) :
    conduct.states after := by
  obtain ⟨enough, walks⟩ := yields.walks
  exact (((permits.walks enough).carryOut task).ends (walks enough (Nat.le_refl _)) within).2

/-! Documents -/

section
open Document

theorem Stores.unlessNothing {name : String} {made : Option Field} (stores : made ≠ none → conduct.Stores name) :
    conduct.Keeps (fun _ => True) (storeUnlessNothing name made) := by
  cases made with
  | some field => exact (stores (by simp)).keeps field
  | none => exact .pure trivial

theorem Walks.plainDefinition (walks : conduct.Walks barren walker) {name : String} {node : Json}
    (stores : ¬barren node → conduct.Stores name) :
    conduct.Keeps (fun _ => True) (plainDefinition walker name node) := by
  refine (walks.definition _ node).bind fun made fruitless => ?_
  cases made with
  | none => exact .log _
  | some field =>
    refine (Keeps.cached? name).bind fun found _ => ?_
    split
    · exact .log _
    · exact (stores fun node_barren => by cases fruitless node_barren).keeps field

theorem Walks.aliasDefinition (walks : conduct.Walks barren walker) (permits : conduct.Permits context barren)
    {name : String} {members : Members} (stores : ¬barren (.object members) → conduct.Stores name) :
    conduct.Keeps (fun _ => True) (aliasDefinition context walker name members) := by
  refine (Keeps.orFail _).bind fun target refers => (Keeps.cached? target).bind fun found known => ?_
  split
  · refine (walks.definition _ _).bind fun made fruitless => Stores.unlessNothing fun something => ?_
    exact stores fun node_barren => something (fruitless node_barren)
  · split
    next body given =>
      split
      · exact .fail _
      next plain =>
        have followed : conduct.Keeps (fun _ => True) (Resolve.guarded target fun entered =>
            if entered then walker.definition (.named (some name)) (.object body)
            else Resolve.fail (.mutualAlias name target)) := by
          refine Keeps.guarded fun entered => ?_
          cases entered with
          | true => exact (walks.definition _ _).anyway
          | false => exact .fail _
        refine followed.bind fun made _ => Stores.unlessNothing fun _ => stores fun node_barren => ?_
        obtain ⟨_, _, same, _, reference, _⟩ := permits.refers (permits.onward node_barren refers given)
        cases same
        exact plain reference
    next => exact .fail _

theorem Walks.define (walks : conduct.Walks barren walker) (permits : conduct.Permits context barren)
    {name : String} {node : Json} (among : (name, node) ∈ context.definitions) :
    conduct.Keeps (fun _ => True) (Document.definition context walker name node) := by
  refine (Keeps.log _).bind fun _ _ => ?_
  cases node with
  | object members =>
    dsimp only
    split
    · exact walks.aliasDefinition permits (permits.stores among)
    · exact walks.plainDefinition (permits.stores among)
  | _ => exact walks.plainDefinition (permits.stores among)

theorem Walks.defineAll (walks : conduct.Walks barren walker) (permits : conduct.Permits context barren)
    {entries : Members} (among : ∀ entry ∈ entries, entry ∈ context.definitions) :
    conduct.Keeps (fun _ => True) (definitions context walker entries) := by
  induction entries with
  | nil => exact .pure trivial
  | cons entry rest ih =>
    exact (walks.define permits (among entry List.mem_cons_self)).bind fun _ _ =>
      ih fun other later => among other (List.mem_cons_of_mem _ later)

theorem Permits.definesAll (permits : conduct.Permits context barren) {entries : Members} {before after : State σ}
    (among : ∀ entry ∈ entries, entry ∈ context.definitions) (defines : DefinesAll context entries before after)
    (within : conduct.states before) : conduct.states after := by
  obtain ⟨enough, walks⟩ := defines.walks
  exact (((permits.walks enough).defineAll permits among).ends (walks enough (Nat.le_refl _)) within).2

theorem Walks.schema (walks : conduct.Walks barren walker) (permits : conduct.Permits context barren)
    (root : Members) : conduct.Keeps (fun _ => True) (schema context walker root) := by
  refine (walks.defineAll permits fun _ among => among).bind fun _ _ => ?_
  simp only [properties_eq]
  exact (walks.all .property _).bind fun _ _ => fun _ within => ⟨trivial, within⟩

/-- The run of a document keeps to a conduct that its start is within, and that permits what its context does. -/
theorem Permits.run {root : Members} {selector : Selector σ}
    (permits : conduct.Permits (Document.context root selector) barren) {start : σ}
    (fresh : conduct.states ⟨[], [], start, []⟩) (bound : Nat) :
    conduct.Allows (fun _ => True) (run bound selector start root).1 ∧
      conduct.states (run bound selector start root).2 :=
  (permits.walks bound).schema permits root _ fresh

end
end Conduct
end FieldTree
