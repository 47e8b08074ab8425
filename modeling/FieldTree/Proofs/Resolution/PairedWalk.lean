import FieldTree.Proofs.Resolution.Pairing
import FieldTree.Proofs.Resolution.Shape

/-! The functions of the walk carry a pairing: if two walkers are paired on what a node can lead to, so are the
walks of the node. A node leads to its own parts, and to the bodies of definitions that are not under guard. -/

namespace FieldTree

structure Walker.Paired {σ τ : Type} (pairing : Pairing σ τ) (fits : Guard → Json → Prop) (first : Walker σ)
    (second : Walker τ) : Prop where
  definition : ∀ {guard site node}, fits guard node →
    pairing.Runs guard (first.definition site node) (second.definition site node)
  property : ∀ {guard site node}, fits guard node →
    pairing.Runs guard (first.property site node) (second.property site node)
  typed : ∀ {guard site node}, fits guard (.object node) →
    pairing.Runs guard (first.typed site node) (second.typed site node)

/-- Both resolutions know the same definitions, and choose alike where there is something to choose from. -/
structure Pairing.Contexts {σ τ : Type} (pairing : Pairing σ τ) (context : Context σ) (context' : Context τ)
    (chooses : Prop) : Prop where
  definitions : context'.definitions = context.definitions
  choose : chooses → ∀ guard count, 0 < count →
    pairing.Runs guard (Resolve.choose context count) (Resolve.choose context' count)

/-- All that the walk of a node can lead to fits. -/
structure Context.Leads {σ : Type} (context : Context σ) (fits : Guard → Json → Prop) (chooses : Prop) (guard : Guard)
    (node : Members) : Prop where
  parts : ∀ part ∈ Json.partsOfMembers node, fits guard part
  bodies : ∀ target body, target ∉ guard → context.definitions.given? target = some (.object body) →
    fits (target :: guard) (.object body)
  choices : node.gives Combinator.anyOf.keyword = true ∨ node.gives Combinator.oneOf.keyword = true → chooses

namespace Walker
open Resolve Node

variable {σ τ : Type} {pairing : Pairing σ τ} {fits : Guard → Json → Prop} {chooses : Prop} {context : Context σ}
  {context' : Context τ} {first : Walker σ} {second : Walker τ} {guard : Guard} {node : Members}

theorem Paired.child (paired : Paired pairing fits first second) (side : Side) (site : Site) {part : Json}
    (fit : fits guard part) : pairing.Runs guard (first.child side site part) (second.child side site part) := by
  cases side with
  | definition => exact paired.definition fit
  | property => exact (paired.property fit).bind fun _ => .pure _

/-! References -/

/-- What comes of a body can as well be kept after the name of its definition is released. -/
theorem outcome_guarded_store (target : String) (body : Resolve σ (Option Field)) (state : State σ) :
    (Resolve.guarded target fun _ => do
        let resolved ← body
        Document.storeUnlessNothing target resolved
        return resolved).outcome state =
      (do
        let resolved ← Resolve.guarded target fun _ => body
        Document.storeUnlessNothing target resolved
        return resolved : Resolve σ (Option Field)).outcome state := by
  simp only [outcome_bind, outcome_guarded]
  cases body.outcome (state.under (state.guard.enter target).2) with
  | mk result after =>
    cases result with
    | error failure => rfl
    | ok resolved => cases resolved <;> rfl

theorem extract_of_given (context : Context σ) (walker : Walker σ) (target : String) (site : Site) {body : Members}
    (given : context.definitions.given? target = some (.object body)) :
    extract context walker target site = do
      let resolved ← walker.definition { site with name := some target } (.object body)
      Document.storeUnlessNothing target resolved
      return resolved := by
  simp only [extract, given]
  congr 1
  funext resolved
  cases resolved <;> rfl

theorem extract_of_not_given (context : Context σ) (walker : Walker σ) (target : String) (site : Site)
    (unknown : ¬∃ body, context.definitions.given? target = some (.object body)) :
    extract context walker target site = fail (.undeclared target) := by
  unfold extract
  split
  next body given => exact absurd ⟨body, given⟩ unknown
  next => rfl

theorem storeUnlessNothing_runs {target : String} (free : target ∉ guard) (resolved : Option Field) :
    pairing.Runs guard (Document.storeUnlessNothing target resolved) (Document.storeUnlessNothing target resolved) := by
  cases resolved with
  | some field => exact .store field free
  | none => exact .pure _

/-- Following a reference to a definition that is not known yet. -/
def follow (context : Context σ) (walker : Walker σ) (target : String) (site : Site) (entered : Bool) :
    Resolve σ (Option Field) :=
  if entered then extract context walker target site
  else do
    log (.unexpanded target site.name)
    return none

theorem outcome_guarded_followed {walker : Walker σ} {target : String} {site : Site} {body : Members}
    (free : target ∉ guard) {state : State σ} (held : state.guard = guard)
    (given : context.definitions.given? target = some (.object body)) :
    (Resolve.guarded target (follow context walker target site)).outcome state =
      (do
        let resolved ← Resolve.guarded target fun _ => walker.definition { site with name := some target } (.object body)
        Document.storeUnlessNothing target resolved
        return resolved : Resolve σ (Option Field)).outcome state := by
  have admitted : (state.guard.enter target).1 = true := by
    have absent : state.guard.contains target = false := by simpa [held] using free
    simp only [Guard.enter, absent, Bool.false_eq_true, ite_false]
  rw [← outcome_guarded_store]
  simp only [outcome_guarded, admitted, follow, ite_true, extract_of_given context walker target site given]

theorem Paired.followed (paired : Paired pairing fits first second)
    (contexts : pairing.Contexts context context' chooses)
    (leads : context.Leads fits chooses guard node) (target : String) (site : Site) :
    pairing.Runs guard (Resolve.guarded target (follow context first target site))
      (Resolve.guarded target (follow context' second target site)) := by
  by_cases inside : target ∈ guard
  · refine Pairing.Runs.guarded (fun _ => ?_) (fun free => absurd inside free)
    exact (Pairing.Runs.log _).bind fun _ => .pure _
  · by_cases known : ∃ body, context.definitions.given? target = some (.object body)
    · obtain ⟨body, given⟩ := known
      have given' := contexts.definitions ▸ given
      have walks : pairing.Runs guard
          (Resolve.guarded target fun _ => first.definition { site with name := some target } (.object body))
          (Resolve.guarded target fun _ => second.definition { site with name := some target } (.object body)) :=
        Pairing.Runs.guarded (fun held => absurd held inside)
          fun _ => paired.definition (leads.bodies target body inside given)
      have kept := walks.bind fun resolved =>
        (storeUnlessNothing_runs inside resolved).bind fun _ => Pairing.Runs.pure resolved
      intro state state' together
      obtain ⟨held, held'⟩ := pairing.guards together
      rw [outcome_guarded_followed inside held given, outcome_guarded_followed inside held' given']
      exact kept state state' together
    · have unknown' : ¬∃ body, context'.definitions.given? target = some (.object body) := contexts.definitions ▸ known
      refine Pairing.Runs.guarded (fun held => absurd held inside) (fun _ => ?_)
      simp only [follow, ite_true, extract_of_not_given _ _ _ _ known, extract_of_not_given _ _ _ _ unknown']
      exact .fail _ rfl

theorem Paired.definitionReference (paired : Paired pairing fits first second)
    (contexts : pairing.Contexts context context' chooses) (leads : context.Leads fits chooses guard node)
    (site : Site) :
    pairing.Runs guard (definitionReference context first site node)
      (definitionReference context' second site node) := by
  unfold Walker.definitionReference
  apply (Pairing.Runs.orFail (target_told node)).bind
  intro target
  apply (Pairing.Runs.cached? target).bind
  intro cached
  cases cached with
  | some field => exact (Pairing.Runs.log _).bind fun _ => .pure _
  | none => exact (paired.followed contexts leads target site).bind fun _ => .pure _

theorem declared_runs (target : String) :
    pairing.Runs guard (declared target : Resolve σ Field) (declared target : Resolve τ Field) := by
  apply (Pairing.Runs.cached? target).bind
  intro cached
  cases cached with
  | some field => exact .pure _
  | none => exact .fail _ rfl

theorem propertyReference_runs (site : Site) (node : Members) :
    pairing.Runs guard (propertyReference site node : Resolve σ Field)
      (propertyReference site node : Resolve τ Field) := by
  unfold propertyReference
  apply (Pairing.Runs.orFail (target_told node)).bind
  intro target
  apply (declared_runs target).bind
  intro field
  split
  · exact .orFail (arrayField_told _ _ _ _)
  · exact .pure _

/-! Combinations -/

theorem select_runs (contexts : pairing.Contexts context context' chooses) (may : chooses) (name : Option String)
    (combinator : Combinator) (branches : List Members) :
    pairing.Runs guard (select context name combinator branches) (select context' name combinator branches) := by
  rw [select_eq, select_eq]
  cases branches with
  | nil => exact .fail _ rfl
  | cons branch rest =>
    exact (contexts.choose may guard _ (Nat.succ_pos _)).bind fun _ => (Pairing.Runs.log _).bind fun _ => .pure _

theorem chooses_of_combinator (leads : context.Leads fits chooses guard node) {combinator : Combinator}
    (given : node.gives combinator.keyword = true) (alternative : combinator ≠ .allOf) : chooses := by
  cases combinator with
  | anyOf => exact leads.choices (.inl given)
  | allOf => exact absurd rfl alternative
  | oneOf => exact leads.choices (.inr given)

theorem mem_of_select {name : Option String} {combinator : Combinator} {branches : List Members} {branch : Members}
    (gives : (select context name combinator branches).Gives branch) : branch ∈ branches := by
  obtain ⟨before, after, ends⟩ := gives
  obtain ⟨index, _, rfl, _⟩ := ends_select.mp ends
  exact List.get_mem _ _

theorem Paired.definitionBranch (paired : Paired pairing fits first second)
    (contexts : pairing.Contexts context context' chooses) (leads : context.Leads fits chooses guard node)
    (name : Option String) {combinator : Combinator} (given : node.gives combinator.keyword = true) :
    pairing.Runs guard (definitionBranch context first name node combinator)
      (definitionBranch context' second name node combinator) := by
  unfold Walker.definitionBranch
  apply (Pairing.Runs.orFail (branches_told _ _ _)).bind_of
  intro branches gives
  have listed := gives.of_orFail
  have walks : ∀ branch ∈ branches,
      pairing.Runs guard (first.definition (.named name) (.object branch))
          (second.definition (.named name) (.object branch)) :=
    fun branch member => paired.definition (leads.parts _ (mem_parts_of_branches listed member))
  split
  · exact .pure _
  · exact walks _ List.mem_cons_self
  next alternative _ =>
    have may := chooses_of_combinator leads given (by rintro rfl; cases branches <;> simp_all)
    exact (select_runs contexts may _ _ _).bind_of fun branch chosen => walks branch (mem_of_select chosen)

theorem Paired.all (paired : Paired pairing fits first second) (side : Side) (inner : List Inner)
    (fit : ∀ one ∈ inner, fits guard one.node) : pairing.Runs guard (all first side inner) (all second side inner) := by
  induction inner with
  | nil => exact .pure _
  | cons one rest ih =>
    have later := ih fun other among => fit other (List.mem_cons_of_mem _ among)
    apply (paired.child side one.site (fit one List.mem_cons_self)).bind
    intro field
    cases field with
    | some field => exact later.bind fun _ => .pure _
    | none =>
      cases one.missing with
      | some event => exact (Pairing.Runs.log event).bind fun _ => later
      | none => exact later

theorem Paired.contribution (paired : Paired pairing fits first second) (name : Option String) (branch : Members)
    (fit : ∀ part ∈ Json.partsOfMembers branch, fits guard part) :
    pairing.Runs guard (contribution first name branch) (contribution second name branch) := by
  unfold Walker.contribution
  split
  · apply (Pairing.Runs.orFail (target_told branch)).bind
    intro target
    apply (declared_runs target).bind
    intro field
    dsimp only
    split
    · exact .pure _
    · exact .ofField _
  · rw [unlistedProperties_eq, unlistedProperties_eq]
    apply paired.all .property
    intro one among
    obtain ⟨entry, member, rfl⟩ := List.mem_map.mp among
    exact fit _ (mem_parts_of_members (Members.mem_parts_of_mem member))

theorem Paired.contributions (paired : Paired pairing fits first second) (name : Option String)
    (branches : List Members)
    (fit : ∀ branch ∈ branches, ∀ part ∈ Json.partsOfMembers branch, fits guard part) :
    pairing.Runs guard (contributions first name branches) (contributions second name branches) := by
  induction branches with
  | nil => exact .pure _
  | cons branch rest ih =>
    apply (paired.contribution name branch (fit branch List.mem_cons_self)).bind
    intro fields
    exact (ih fun branch later => fit branch (List.mem_cons_of_mem _ later)).bind fun _ => .pure _

theorem Paired.combined (paired : Paired pairing fits first second) (name : Option String) (branches : List Members)
    (fit : ∀ branch ∈ branches, ∀ part ∈ Json.partsOfMembers branch, fits guard part) :
    pairing.Runs guard (combined first name branches) (combined second name branches) :=
  (paired.contributions name branches fit).bind fun _ => .ofField _

theorem Paired.propertyBranch (paired : Paired pairing fits first second)
    (contexts : pairing.Contexts context context' chooses) (leads : context.Leads fits chooses guard node)
    (name : Option String) {combinator : Combinator} (given : node.gives combinator.keyword = true) :
    pairing.Runs guard (propertyBranch context first name node combinator)
      (propertyBranch context' second name node combinator) := by
  unfold Walker.propertyBranch
  apply (Pairing.Runs.orFail (branches_told _ _ _)).bind_of
  intro branches gives
  have inside : ∀ branch ∈ branches, .object branch ∈ Json.partsOfMembers node :=
    fun branch member => mem_parts_of_branches gives.of_orFail member
  have fit : ∀ branch ∈ branches, ∀ part ∈ Json.partsOfMembers branch, fits guard part :=
    fun branch member part deeper =>
      leads.parts part (Json.partsOfMembers_trans (List.mem_cons_of_mem _ deeper) node (inside branch member))
  split
  · split
    · exact paired.combined name branches fit
    next alternative =>
      have may := chooses_of_combinator leads given alternative
      refine (select_runs contexts may _ _ _).bind_of fun branch chosen => paired.combined name [branch] ?_
      intro other member
      rw [List.mem_singleton.mp member]
      exact fit branch (mem_of_select chosen)
  · split
    · exact .fail _ rfl
    · split
      · exact .fail _ rfl
      next alternative =>
        have may := chooses_of_combinator leads given alternative
        exact (select_runs contexts may _ _ _).bind_of fun branch chosen =>
          paired.typed (leads.parts _ (inside branch (mem_of_select chosen)))

/-! Nodes -/

/-- What the shape of a node asks for runs alike. -/
theorem Paired.perform (paired : Paired pairing fits first second)
    (contexts : pairing.Contexts context context' chooses)
    (leads : context.Leads fits chooses guard node) {side : Side} {site : Site} {shape : Shape}
    (form : Shape.Form side site node shape) :
    pairing.Runs guard (perform context first side shape) (perform context' second side shape) := by
  cases shape with
  | wrong error =>
    cases form with
    | wrong _ own => exact .fail error own
  | leaf field => exact .pure _
  | group inner making =>
    apply (paired.all side inner fun one among => leads.parts _ (form.inside one among)).bind
    intro fields
    exact .orFail (making.make_told fields)
  | reference =>
    cases form
    cases side with
    | definition => exact paired.definitionReference contexts leads site
    | property => exact (propertyReference_runs site node).bind fun _ => .pure _
  | combination =>
    cases form with
    | combination gives =>
      cases side with
      | definition => exact paired.definitionBranch contexts leads _ gives
      | property => exact (paired.propertyBranch contexts leads _ gives).bind fun _ => .pure _

theorem Paired.ofNode (paired : Paired pairing fits first second) (contexts : pairing.Contexts context context' chooses)
    (manner : Manner) (site : Site) {value : Json}
    (leads : ∀ node, value = .object node → context.Leads fits chooses guard node) :
    pairing.Runs guard (Walker.perform context first manner.side (Shape.ofNode manner site value))
      (Walker.perform context' second manner.side (Shape.ofNode manner site value)) := by
  cases value with
  | object node =>
    obtain ⟨place, _, form⟩ := Shape.ofNode_form manner site node
    exact paired.perform contexts (leads node rfl) form
  | _ => cases manner <;> exact .fail _ rfl

theorem Paired.definitionStep (paired : Paired pairing fits first second)
    (contexts : pairing.Contexts context context' chooses) (site : Site) {value : Json}
    (leads : ∀ node, value = .object node → context.Leads fits chooses guard node) :
    pairing.Runs guard (definitionStep context first site value) (definitionStep context' second site value) := by
  rw [definitionStep_eq, definitionStep_eq]
  exact paired.ofNode contexts .definition site leads

/-- On the side of the properties every node inside another gives a field. -/
theorem length_all {walker : Walker σ} {inner : List Inner} {fields : List Field}
    (gives : (Walker.all walker .property inner).Gives fields) : fields.length = inner.length := by
  induction inner generalizing fields with
  | nil =>
    obtain ⟨before, after, ends⟩ := gives
    rw [(ends_pure.mp ends).1]
    rfl
  | cons one rest ih =>
    obtain ⟨before, after, ends⟩ := gives
    obtain ⟨child, middle, here, ends⟩ := ends_bind.mp ends
    obtain ⟨field, _, _, made⟩ := ends_bind.mp here
    obtain ⟨rfl, _⟩ := ends_pure.mp made
    obtain ⟨others, last, later, ends⟩ := ends_bind.mp ends
    rw [(ends_pure.mp ends).1, List.length_cons, List.length_cons, ih ⟨middle, last, later⟩]

/-- On the side of the properties something comes of every shape that a node can have. -/
theorem isSome_of_perform {walker : Walker σ} {manner : Manner} {site : Site} {node : Json} {child : Option Field}
    (side : manner.side = .property)
    (gives : (Walker.perform context walker manner.side (Shape.ofNode manner site node)).Gives child) :
    child.isSome := by
  obtain ⟨before, after, ends⟩ := gives
  rw [side] at ends
  cases shape : Shape.ofNode manner site node with
  | wrong error =>
    rw [shape] at ends
    exact (ends_fail.mp ends).elim
  | leaf field =>
    rw [shape] at ends
    rw [(ends_pure.mp ends).1]
    rfl
  | group inner making =>
    simp only [shape, Walker.perform, ends_bind, ends_orFail] at ends
    obtain ⟨fields, middle, each, makes, rfl⟩ := ends
    cases child with
    | some made => rfl
    | none =>
      obtain ⟨needs, rfl⟩ := Making.make_none makes
      have empty : inner = [] := List.length_eq_zero_iff.mp (length_all ⟨_, _, each⟩).symm
      exact absurd empty ((Shape.ofNode_group shape).2.1 needs)
  | reference other members =>
    simp only [shape, Walker.perform, ends_bind, ends_pure] at ends
    obtain ⟨taken, _, _, rfl, _⟩ := ends
    rfl
  | combination name members combinator =>
    simp only [shape, Walker.perform, ends_bind, ends_pure] at ends
    obtain ⟨made, _, _, rfl, _⟩ := ends
    rfl

/-- What is expected of a node on the side of the properties is there. -/
theorem Paired.expected (paired : Paired pairing fits first second)
    (contexts : pairing.Contexts context context' chooses) (manner : Manner) (side : manner.side = .property)
    (site : Site) {value : Json} (leads : ∀ node, value = .object node → context.Leads fits chooses guard node) :
    pairing.Runs guard
      (Walker.perform context first manner.side (Shape.ofNode manner site value) >>= expect site.name)
      (Walker.perform context' second manner.side (Shape.ofNode manner site value) >>= expect site.name) := by
  apply (paired.ofNode contexts manner site leads).bind_of
  intro child gives
  cases child with
  | some field => exact .pure _
  | none => cases isSome_of_perform side gives

theorem Paired.typedStep (paired : Paired pairing fits first second)
    (contexts : pairing.Contexts context context' chooses) (site : Site)
    (leads : context.Leads fits chooses guard node) :
    pairing.Runs guard (typedStep context first site node) (typedStep context' second site node) := by
  rw [typedStep_eq, typedStep_eq]
  apply paired.expected contexts .typed rfl site
  rintro _ ⟨⟩
  exact leads

theorem Paired.propertyStep (paired : Paired pairing fits first second)
    (contexts : pairing.Contexts context context' chooses) (site : Site) {value : Json}
    (leads : ∀ node, value = .object node → context.Leads fits chooses guard node) :
    pairing.Runs guard (propertyStep context first site value) (propertyStep context' second site value) := by
  rw [propertyStep_eq, propertyStep_eq]
  exact paired.expected contexts .property rfl site leads

/-- Walkers with room for one level more are paired where a node leads to what pairs the walkers below. -/
theorem Paired.succ {bound bound' : Nat} {fits' : Guard → Json → Prop}
    (paired : Paired pairing fits (walker context bound) (walker context' bound'))
    (contexts : pairing.Contexts context context' chooses)
    (leads : ∀ {guard node}, fits' guard (.object node) → context.Leads fits chooses guard node) :
    Paired pairing fits' (walker context (bound + 1)) (walker context' (bound' + 1)) := by
  constructor
  · intro guard site value fit
    refine paired.definitionStep contexts site fun node same => leads ?_
    rwa [← same]
  · intro guard site value fit
    refine paired.propertyStep contexts site fun node same => leads ?_
    rwa [← same]
  · intro guard site node fit
    exact paired.typedStep contexts site (leads fit)

/-- Two walkers with one bound that know the same definitions walk alike, if their selectors agree wherever a node has
to choose. -/
theorem walker_paired (contexts : pairing.Contexts context context' chooses)
    (leads : ∀ {guard node}, fits guard (.object node) → context.Leads fits chooses guard node)
    (deep : pairing.failures .tooDeep) (bound : Nat) :
    Paired pairing fits (walker context bound) (walker context' bound) := by
  induction bound with
  | zero => exact ⟨fun _ => .throw _ deep, fun _ => .throw _ deep, fun _ => .throw _ deep⟩
  | succ bound ih => exact ih.succ contexts leads

end Walker
end FieldTree
