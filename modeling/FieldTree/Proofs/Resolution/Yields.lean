import FieldTree.Proofs.Resolution.Outcome
import FieldTree.Proofs.Resolution.Shape

/-! The walk, as far as it does not fail, told without the bound on the nesting. The relation has one rule for
each way in which something, or nothing, comes of a node. It holds whenever the walk ends without a failure, and
a walk with enough room ends as the relation says. -/

namespace FieldTree

/-- What the walk is asked for: a node, the nodes inside another, or the branches of a combination that add up to
one object. -/
inductive Task
  | node (manner : Manner) (site : Site) (node : Json)
  | all (side : Side) (inner : List Inner)
  | merge (name : Option String) (branches : List Members)

variable {σ : Type}

/-- Keeps what came of the body of a definition. -/
def State.keep (state : State σ) (name : String) : List Field → State σ
  | [] => state
  | field :: _ => state.stored name field

/-- Reports that nothing came of an inner node. -/
def State.noted (state : State σ) (inner : Inner) : List Field → State σ
  | [] => inner.missing.elim state state.logged
  | _ :: _ => state

/-- What a reference among the properties makes of its target. -/
def Site.takeOver (site : Site) (node : Members) (field : Field) : Except SemanticError Field :=
  if Node.type? node = some .array then
    Node.arrayField site.name node (field.rename none) (requiredCollection site.inObject site.required)
  else .ok (Walker.atSite site (field.rename site.name))

/-- What a referenced field adds to a combination. -/
def Field.added (name : Option String) (branch : Members) (field : Field) : Except FieldError (List Field) :=
  if Node.hasType branch || (field.rename name).isCollection then .ok [field.rename name]
  else (field.rename name).properties

/-- The branches that are used: all that hold together, or the one that is chosen. -/
def Walker.take (context : Context σ) (name : Option String) (combinator : Combinator) (branches : List Members) :
    Resolve σ (List Members) :=
  if combinator = .allOf then return branches
  else return [← select context name combinator branches]

inductive Yields (context : Context σ) : Task → State σ → List Field → State σ → Prop
  | leaf {manner site node field before} (shape : Shape.ofNode manner site node = .leaf field) :
    Yields context (.node manner site node) before [field] before
  | group {manner site node inner making fields made before after}
    (shape : Shape.ofNode manner site node = .group inner making)
    (each : Yields context (.all manner.side inner) before fields after)
    (makes : making.make fields = .ok (some made)) :
    Yields context (.node manner site node) before [made] after
  | dropped {site node inner making fields before after}
    (shape : Shape.ofNode .definition site node = .group inner making)
    (each : Yields context (.all .definition inner) before fields after) (makes : making.make fields = .ok none) :
    Yields context (.node .definition site node) before [] after
  | reused {site node other members target field before}
    (shape : Shape.ofNode .definition site node = .reference other members)
    (refers : Node.target members = .ok target) (known : before.cache.get? target = some field) :
    Yields context (.node .definition site node) before [field.rename other.name]
      (before.logged (.reused target other.name))
  | unexpanded {site node other members target before}
    (shape : Shape.ofNode .definition site node = .reference other members)
    (refers : Node.target members = .ok target) (unknown : before.cache.get? target = none)
    (held : target ∈ before.guard) :
    Yields context (.node .definition site node) before [] (before.logged (.unexpanded target other.name))
  | extracted {site node other members target body fields before middle}
    (shape : Shape.ofNode .definition site node = .reference other members)
    (refers : Node.target members = .ok target) (unknown : before.cache.get? target = none)
    (free : target ∉ before.guard) (given : context.definitions.given? target = some (.object body))
    (inside : Yields context (.node .definition { other with name := some target } (.object body))
      (before.under (target :: before.guard)) fields middle) :
    Yields context (.node .definition site node) before (fields.map (Field.rename other.name))
      ((middle.keep target fields).under (middle.guard.erase target))
  | declared {manner site node other members target field taken before} (side : manner.side = .property)
    (shape : Shape.ofNode manner site node = .reference other members)
    (refers : Node.target members = .ok target) (known : before.cache.get? target = some field)
    (takes : other.takeOver members field = .ok taken) :
    Yields context (.node manner site node) before [taken] before
  | empty {site node name members combinator branches before middle}
    (shape : Shape.ofNode .definition site node = .combination name members combinator)
    (listed : Node.branches members combinator name = .ok branches)
    (taken : (Walker.take context name combinator branches).Ends before [] middle) :
    Yields context (.node .definition site node) before [.object name none [] []] middle
  | first {site node name members combinator branches branch others fields before middle after}
    (shape : Shape.ofNode .definition site node = .combination name members combinator)
    (listed : Node.branches members combinator name = .ok branches)
    (taken : (Walker.take context name combinator branches).Ends before (branch :: others) middle)
    (walked : Yields context (.node .definition (.named name) (.object branch)) middle fields after) :
    Yields context (.node .definition site node) before fields after
  | merged {manner site node name members combinator branches used fields before middle after}
    (side : manner.side = .property) (shape : Shape.ofNode manner site node = .combination name members combinator)
    (listed : Node.branches members combinator name = .ok branches)
    (structural : branches.all Node.isStructural = true)
    (taken : (Walker.take context name combinator branches).Ends before used middle)
    (walked : Yields context (.merge name used) middle fields after) :
    Yields context (.node manner site node) before [.object name (some false) fields []] after
  | scalar {manner site node name members combinator branches branch fields before middle after}
    (side : manner.side = .property) (shape : Shape.ofNode manner site node = .combination name members combinator)
    (listed : Node.branches members combinator name = .ok branches)
    (scalars : branches.all Node.isStructural = false ∧ branches.any Node.isStructural = false)
    (alternative : combinator ≠ .allOf)
    (taken : (Walker.take context name combinator branches).Ends before [branch] middle)
    (walked : Yields context (.node .typed (.named name) (.object branch)) middle fields after) :
    Yields context (.node manner site node) before fields after
  | allNil {side before} : Yields context (.all side []) before [] before
  | allCons {side inner rest fields others before middle after}
    (here : Yields context (.node side.manner inner.site inner.node) before fields middle)
    (later : Yields context (.all side rest) (middle.noted inner fields) others after) :
    Yields context (.all side (inner :: rest)) before (fields ++ others) after
  | mergeNil {name before} : Yields context (.merge name []) before [] before
  | mergeInline {name branch rest fields others before middle after} (inline : Node.isReference branch = false)
    (here : Yields context
      (.all .property (Shape.unlisted (Json.members (branch.given? "properties")))) before fields middle)
    (later : Yields context (.merge name rest) middle others after) :
    Yields context (.merge name (branch :: rest)) before (fields ++ others) after
  | mergeReference {name branch rest target field fields others before after}
    (reference : Node.isReference branch = true) (refers : Node.target branch = .ok target)
    (known : before.cache.get? target = some field) (adds : field.added name branch = .ok fields)
    (later : Yields context (.merge name rest) before others after) :
    Yields context (.merge name (branch :: rest)) before (fields ++ others) after

namespace Walker
open Resolve Node

variable {context : Context σ} {walker : Walker σ}

/-- The walk of a task. -/
def carryOut (walker : Walker σ) : Task → Resolve σ (List Field)
  | .node .definition site node => return (← walker.definition site node).toList
  | .node .property site node => return [← walker.property site node]
  | .node .typed site (.object node) => return [← walker.typed site node]
  | .node .typed site _ => fail (.unsupportedShape site.name)
  | .all side inner => all walker side inner
  | .merge name branches => contributions walker name branches

theorem definitionBranch_eq (name : Option String) (node : Members) (combinator : Combinator) :
    definitionBranch context walker name node combinator = (do
      match ← take context name combinator (← orFail (branches node combinator name)) with
      | [] => return some (.object name none [] [])
      | branch :: _ => walker.definition (.named name) (.object branch)) := by
  unfold definitionBranch take
  congr 1
  funext branches
  cases combinator with
  | allOf => cases branches <;> simp
  | anyOf => simp
  | oneOf => simp

theorem propertyReference_eq (site : Site) (node : Members) :
    (propertyReference site node : Resolve σ Field) = (do
      orFail (site.takeOver node (← declared (← orFail (target node))))) := by
  unfold propertyReference Site.takeOver
  congr 1
  funext target
  congr 1
  funext field
  split <;> rfl

theorem contribution_eq (name : Option String) (branch : Members) :
    contribution walker name branch =
      if isReference branch then do ofField ((← declared (← orFail (target branch))).added name branch)
      else all walker .property (Shape.unlisted (Json.members (branch.given? "properties"))) := by
  unfold contribution Field.added
  rw [unlistedProperties_eq]
  split
  · congr 1
    funext target
    congr 1
    funext field
    dsimp only
    split <;> rfl
  · rfl

theorem propertyBranch_eq (name : Option String) (node : Members) (combinator : Combinator) :
    propertyBranch context walker name node combinator = (do
      let branches ← orFail (branches node combinator name)
      if branches.all isStructural then
        combined walker name (← take context name combinator branches)
      else if branches.any isStructural then fail (.mixedCombination name)
      else if combinator = .allOf then fail (.scalarAllOf name)
      else walker.typed (.named name) (← select context name combinator branches)) := by
  unfold propertyBranch take
  congr 1
  funext branches
  split
  · split <;> simp
  · rfl

theorem ends_declared {target : String} {field : Field} {before after : State σ} :
    (declared target).Ends before field after ↔ before.cache.get? target = some field ∧ before = after := by
  simp only [declared, ends_bind, ends_cached?]
  constructor
  · rintro ⟨_, _, ⟨rfl, rfl⟩, ends⟩
    cases found : before.cache.get? target with
    | some known =>
      simp only [found, ends_pure] at ends
      obtain ⟨rfl, rfl⟩ := ends
      exact ⟨rfl, rfl⟩
    | none => simp only [found, ends_fail] at ends
  · rintro ⟨found, rfl⟩
    refine ⟨_, _, ⟨rfl, rfl⟩, ?_⟩
    simp only [found, ends_pure, and_self]

/-! How the functions of the walk end. -/

section
variable {before after : State σ}

theorem ends_take_alternative {name : Option String} {combinator : Combinator} {branches : List Members}
    {branch : Members}
    (alternative : combinator ≠ .allOf) :
    (take context name combinator branches).Ends before [branch] after ↔
      (select context name combinator branches).Ends before branch after := by
  simp only [take, alternative, ite_false, ends_bind, ends_pure]
  constructor
  · rintro ⟨chosen, _, ends, same, rfl⟩
    cases same
    exact ends
  · exact fun ends => ⟨branch, after, ends, rfl, rfl⟩

theorem ends_propertyReference {site : Site} {node : Members} {taken : Field} :
    (propertyReference site node : Resolve σ Field).Ends before taken after ↔
      ∃ target field, Node.target node = .ok target ∧ before.cache.get? target = some field ∧
        site.takeOver node field = .ok taken ∧ before = after := by
  simp only [propertyReference_eq, ends_bind, ends_orFail, ends_declared]
  constructor
  · rintro ⟨target, _, ⟨refers, rfl⟩, field, _, ⟨known, rfl⟩, takes, rfl⟩
    exact ⟨target, field, refers, known, takes, rfl⟩
  · rintro ⟨target, field, refers, known, takes, rfl⟩
    exact ⟨target, before, ⟨refers, rfl⟩, field, before, ⟨known, rfl⟩, takes, rfl⟩

theorem ends_contribution {name : Option String} {branch : Members} {fields : List Field} :
    (contribution walker name branch).Ends before fields after ↔
      (isReference branch = true ∧ ∃ target field, Node.target branch = .ok target ∧
        before.cache.get? target = some field ∧ field.added name branch = .ok fields ∧ before = after) ∨
      (isReference branch = false ∧
        (all walker .property (Shape.unlisted (Json.members (branch.given? "properties")))).Ends
          before fields after) := by
  rw [contribution_eq]
  cases isReference branch with
  | true =>
    simp only [ite_true, ends_bind, ends_orFail, ends_ofField, ends_declared, true_and, reduceCtorEq, false_and,
      or_false]
    constructor
    · rintro ⟨target, _, ⟨refers, rfl⟩, field, _, ⟨known, rfl⟩, adds, rfl⟩
      exact ⟨target, field, refers, known, adds, rfl⟩
    · rintro ⟨target, field, refers, known, adds, rfl⟩
      exact ⟨target, before, ⟨refers, rfl⟩, field, before, ⟨known, rfl⟩, adds, rfl⟩
  | false => simp only [Bool.false_eq_true, ite_false, false_and, false_or, true_and]

theorem ends_definitionBranch {name : Option String} {node : Members} {combinator : Combinator} {child : Option Field} :
    (definitionBranch context walker name node combinator).Ends before child after ↔
      ∃ branches used middle, Node.branches node combinator name = .ok branches ∧
        (take context name combinator branches).Ends before used middle ∧
          ((used = [] ∧ child = some (.object name none [] []) ∧ middle = after) ∨
            ∃ branch others, used = branch :: others ∧
              (walker.definition (.named name) (.object branch)).Ends middle child after) := by
  simp only [definitionBranch_eq, ends_bind, ends_orFail]
  constructor
  · rintro ⟨branches, _, ⟨listed, rfl⟩, used, middle, taken, ends⟩
    refine ⟨branches, used, middle, listed, taken, ?_⟩
    cases used with
    | nil => exact .inl ⟨rfl, ends_pure.mp ends⟩
    | cons branch others => exact .inr ⟨branch, others, rfl, ends⟩
  · rintro ⟨branches, used, middle, listed, taken, ⟨rfl, made⟩ | ⟨branch, others, rfl, walked⟩⟩
    · exact ⟨branches, before, ⟨listed, rfl⟩, [], middle, taken, ends_pure.mpr made⟩
    · exact ⟨branches, before, ⟨listed, rfl⟩, branch :: others, middle, taken, walked⟩

theorem ends_combined {name : Option String} {branches : List Members} {made : Field} :
    (combined walker name branches).Ends before made after ↔
      ∃ fields, (contributions walker name branches).Ends before fields after ∧
        made = .object name (some false) fields [] := by
  simp only [combined, ends_bind, Field.ofFields, List.filter_nil, ends_ofField, Except.ok.injEq]
  constructor
  · rintro ⟨fields, _, ends, rfl, rfl⟩
    exact ⟨fields, ends, rfl⟩
  · rintro ⟨fields, ends, rfl⟩
    exact ⟨fields, after, ends, rfl, rfl⟩

theorem ends_propertyBranch {name : Option String} {node : Members} {combinator : Combinator} {made : Field} :
    (propertyBranch context walker name node combinator).Ends before made after ↔
      ∃ branches, Node.branches node combinator name = .ok branches ∧
        ((branches.all isStructural = true ∧ ∃ used middle fields,
          (take context name combinator branches).Ends before used middle ∧
            (contributions walker name used).Ends middle fields after ∧ made = .object name (some false) fields []) ∨
          ((branches.all isStructural = false ∧ branches.any isStructural = false) ∧ combinator ≠ .allOf ∧
            ∃ branch middle, (take context name combinator branches).Ends before [branch] middle ∧
              (walker.typed (.named name) branch).Ends middle made after)) := by
  simp only [propertyBranch_eq, ends_bind, ends_orFail]
  constructor
  · rintro ⟨branches, _, ⟨listed, rfl⟩, ends⟩
    refine ⟨branches, listed, ?_⟩
    split at ends
    next structural =>
      obtain ⟨used, middle, taken, ends⟩ := ends_bind.mp ends
      obtain ⟨fields, merged, same⟩ := ends_combined.mp ends
      exact .inl ⟨structural, used, middle, fields, taken, merged, same⟩
    next unstructured =>
      split at ends
      · exact (ends_fail.mp ends).elim
      next never =>
        split at ends
        · exact (ends_fail.mp ends).elim
        next alternative =>
          obtain ⟨branch, middle, selected, walked⟩ := ends_bind.mp ends
          have taken := (ends_take_alternative alternative).mpr selected
          exact .inr ⟨⟨Bool.eq_false_iff.mpr unstructured, Bool.eq_false_iff.mpr never⟩, alternative, branch, middle,
            taken, walked⟩
  · rintro ⟨branches, listed, ⟨structural, used, middle, fields, taken, merged, same⟩ |
      ⟨scalars, alternative, branch, middle, taken, walked⟩⟩
    · refine ⟨branches, before, ⟨listed, rfl⟩, ?_⟩
      simp only [structural, ite_true]
      exact ends_bind.mpr ⟨used, middle, taken, ends_combined.mpr ⟨fields, merged, same⟩⟩
    · refine ⟨branches, before, ⟨listed, rfl⟩, ?_⟩
      simp only [scalars, alternative, Bool.false_eq_true, ite_false]
      exact ends_bind.mpr ⟨branch, middle, (ends_take_alternative alternative).mp taken, walked⟩

theorem ends_extract {target : String} {site : Site} {child : Option Field} :
    (extract context walker target site).Ends before child after ↔ ∃ body middle,
      context.definitions.given? target = some (.object body) ∧
        (walker.definition { site with name := some target } (.object body)).Ends before child middle ∧
          after = middle.keep target child.toList := by
  unfold extract
  split
  next body given =>
    simp only [given, Option.some.injEq, Json.object.injEq, exists_and_left, exists_eq_left', ends_bind]
    constructor
    · rintro ⟨made, middle, walked, kept⟩
      cases made with
      | some field =>
        simp only [ends_bind, ends_store, ends_pure] at kept
        obtain ⟨_, _, rfl, rfl, rfl⟩ := kept
        exact ⟨middle, walked, rfl⟩
      | none =>
        obtain ⟨rfl, rfl⟩ := ends_pure.mp kept
        exact ⟨middle, walked, rfl⟩
    · rintro ⟨middle, walked, rfl⟩
      refine ⟨child, middle, walked, ?_⟩
      cases child with
      | some field => exact ends_bind.mpr ⟨(), _, ends_store.mpr rfl, ends_pure.mpr ⟨rfl, rfl⟩⟩
      | none => exact ends_pure.mpr ⟨rfl, rfl⟩
  next unknown =>
    constructor
    · exact fun ends => (ends_fail.mp ends).elim
    · rintro ⟨body, _, given, _⟩
      exact absurd given (unknown body)

/-- The target is known, or it is under guard, or its body is walked and what comes of it is kept. -/
theorem ends_definitionReference {site : Site} {node : Members} {child : Option Field} :
    (definitionReference context walker site node).Ends before child after ↔ ∃ target, Node.target node = .ok target ∧
      ((∃ field, before.cache.get? target = some field ∧ child = some (field.rename site.name) ∧
          after = before.logged (.reused target site.name)) ∨
        (before.cache.get? target = none ∧ target ∈ before.guard ∧ child = none ∧
          after = before.logged (.unexpanded target site.name)) ∨
        (before.cache.get? target = none ∧ target ∉ before.guard ∧ ∃ body made middle,
          context.definitions.given? target = some (.object body) ∧
            (walker.definition { site with name := some target } (.object body)).Ends
              (before.under (target :: before.guard))
              made middle ∧
            child = made.map (Field.rename site.name) ∧
              after = (middle.keep target made.toList).under (middle.guard.erase target))) := by
  simp only [definitionReference, ends_bind, ends_orFail, ends_cached?]
  constructor
  · rintro ⟨target, _, ⟨refers, rfl⟩, known, _, ⟨rfl, rfl⟩, ends⟩
    refine ⟨target, refers, ?_⟩
    cases found : before.cache.get? target with
    | some field =>
      simp only [found, ends_bind, ends_log, ends_pure] at ends
      obtain ⟨_, _, rfl, same, rfl⟩ := ends
      exact .inl ⟨field, rfl, same, rfl⟩
    | none =>
      simp only [found, ends_bind, ends_pure] at ends
      obtain ⟨made, _, followed, rfl, rfl⟩ := ends
      by_cases held : target ∈ before.guard
      · rw [ends_guarded_of_mem held] at followed
        simp only [Bool.false_eq_true, ite_false, ends_bind, ends_log, ends_pure] at followed
        obtain ⟨_, _, rfl, rfl, rfl⟩ := followed
        exact .inr (.inl ⟨rfl, held, rfl, rfl⟩)
      · obtain ⟨last, inside, rfl⟩ := (ends_guarded_of_not_mem held).mp followed
        simp only [ite_true] at inside
        obtain ⟨body, middle, given, walked, rfl⟩ := ends_extract.mp inside
        refine .inr (.inr ⟨rfl, held, body, made, middle, given, walked, rfl, ?_⟩)
        cases made <;> rfl
  · rintro ⟨target, refers, ⟨field, known, rfl, rfl⟩ | ⟨unknown, held, rfl, rfl⟩ |
      ⟨unknown, free, body, made, middle, given, walked, rfl, rfl⟩⟩
    · refine ⟨target, before, ⟨refers, rfl⟩, some field, before, ⟨known.symm, rfl⟩, ?_⟩
      exact ends_bind.mpr ⟨(), _, ends_log.mpr rfl, ends_pure.mpr ⟨rfl, rfl⟩⟩
    · refine ⟨target, before, ⟨refers, rfl⟩, none, before, ⟨unknown.symm, rfl⟩, ?_⟩
      refine ends_bind.mpr ⟨none, _, (ends_guarded_of_mem held).mpr ?_, ends_pure.mpr ⟨rfl, rfl⟩⟩
      exact ends_bind.mpr ⟨(), _, ends_log.mpr rfl, ends_pure.mpr ⟨rfl, rfl⟩⟩
    · refine ⟨target, before, ⟨refers, rfl⟩, none, before, ⟨unknown.symm, rfl⟩, ?_⟩
      refine ends_bind.mpr ⟨made, _, (ends_guarded_of_not_mem free).mpr ⟨middle.keep target made.toList, ?_, ?_⟩,
        ends_pure.mpr ⟨rfl, rfl⟩⟩
      · exact ends_extract.mpr ⟨body, middle, given, walked, rfl⟩
      · cases made <;> rfl

end

/-! A walk that ends as asked is told by the relation. -/

theorem ends_missing {missing : Option Event} {given : Unit} {before after : State σ} :
    (missing.forM log : Resolve σ Unit).Ends before given after ↔ after = missing.elim before before.logged := by
  cases missing with
  | some event => exact ends_log
  | none =>
    constructor
    · intro ends
      exact (ends_pure.mp ends).2.symm
    · intro same
      exact ends_pure.mpr ⟨rfl, same.symm⟩

theorem ends_child {side : Side} {site : Site} {node : Json} {fields : List Field} {before after : State σ} :
    (walker.carryOut (.node side.manner site node)).Ends before fields after ↔
      ∃ child : Option Field, (walker.child side site node).Ends before child after ∧ fields = child.toList := by
  have same : walker.carryOut (.node side.manner site node) = (do return (← walker.child side site node).toList) := by
    cases side with
    | definition => rfl
    | property => simp only [Side.manner, carryOut, child, bind_assoc, pure_bind, Option.toList_some]
  rw [same]
  simp only [ends_bind, ends_pure]
  constructor
  · rintro ⟨child, _, ends, rfl, rfl⟩
    exact ⟨child, ends, rfl⟩
  · rintro ⟨child, ends, rfl⟩
    exact ⟨child, after, ends, rfl, rfl⟩

/-- What ends on nodes is told by the relation. -/
def Sound (context : Context σ) (walker : Walker σ) : Prop :=
  ∀ {manner site node before fields after}, (walker.carryOut (.node manner site node)).Ends before fields after →
    Yields context (.node manner site node) before fields after

variable {before after : State σ} {fields : List Field}

theorem Sound.definition (sound : Sound context walker) {site : Site} {node : Json} {child : Option Field}
    (ends : (walker.definition site node).Ends before child after) :
    Yields context (.node .definition site node) before child.toList after :=
  sound (ends_bind.mpr ⟨child, after, ends, ends_pure.mpr ⟨rfl, rfl⟩⟩)

theorem Sound.typed (sound : Sound context walker) {site : Site} {node : Members} {field : Field}
    (ends : (walker.typed site node).Ends before field after) :
    Yields context (.node .typed site (.object node)) before [field] after :=
  sound (ends_bind.mpr ⟨field, after, ends, ends_pure.mpr ⟨rfl, rfl⟩⟩)

theorem Sound.all (sound : Sound context walker) {side : Side} {inner : List Inner}
    (ends : (all walker side inner).Ends before fields after) :
    Yields context (.all side inner) before fields after := by
  induction inner generalizing before fields with
  | nil =>
    obtain ⟨rfl, rfl⟩ := ends_pure.mp ends
    exact .allNil
  | cons one rest ih =>
    obtain ⟨child, middle, here, ends⟩ := ends_bind.mp ends
    have walked := sound (ends_child.mpr ⟨child, here, rfl⟩)
    cases child with
    | some field =>
      obtain ⟨others, _, later, ends⟩ := ends_bind.mp ends
      obtain ⟨rfl, rfl⟩ := ends_pure.mp ends
      exact .allCons walked (ih later)
    | none =>
      obtain ⟨_, _, noted, later⟩ := ends_bind.mp ends
      rw [ends_missing.mp noted] at later
      exact .allCons walked (ih later)

theorem Sound.merge (sound : Sound context walker) {name : Option String} {branches : List Members}
    (ends : (contributions walker name branches).Ends before fields after) :
    Yields context (.merge name branches) before fields after := by
  induction branches generalizing before fields with
  | nil =>
    obtain ⟨rfl, rfl⟩ := ends_pure.mp ends
    exact .mergeNil
  | cons branch rest ih =>
    obtain ⟨added, middle, here, ends⟩ := ends_bind.mp ends
    obtain ⟨others, _, later, ends⟩ := ends_bind.mp ends
    obtain ⟨rfl, rfl⟩ := ends_pure.mp ends
    rcases ends_contribution.mp here with ⟨reference, target, field, refers, known, adds, rfl⟩ | ⟨inline, walked⟩
    · exact .mergeReference reference refers known adds (ih later)
    · exact .mergeInline inline (sound.all walked) (ih later)

theorem Sound.reference (sound : Sound context walker) {site other : Site} {node : Json} {members : Members}
    (shape : Shape.ofNode .definition site node = .reference other members) {child : Option Field}
    (ends : (definitionReference context walker other members).Ends before child after) :
    Yields context (.node .definition site node) before child.toList after := by
  obtain ⟨target, refers, ⟨field, known, rfl, rfl⟩ | ⟨unknown, held, rfl, rfl⟩ |
    ⟨unknown, free, body, made, middle, given, walked, rfl, rfl⟩⟩ := ends_definitionReference.mp ends
  · exact .reused shape refers known
  · exact .unexpanded shape refers unknown held
  · have extracted := Yields.extracted shape refers unknown free given (sound.definition walked)
    cases made <;> exact extracted

theorem Sound.perform (sound : Sound context walker) (manner : Manner) {site : Site} {node : Json}
    {child : Option Field}
    (something : manner.side = .property → child.isSome)
    (ends : (perform context walker manner.side (Shape.ofNode manner site node)).Ends before child after) :
    Yields context (.node manner site node) before child.toList after := by
  cases shape : Shape.ofNode manner site node with
  | wrong error =>
    rw [shape] at ends
    exact (ends_fail.mp ends).elim
  | leaf field =>
    rw [shape] at ends
    obtain ⟨rfl, rfl⟩ := ends_pure.mp ends
    exact .leaf shape
  | group inner making =>
    simp only [shape, Walker.perform, ends_bind, ends_orFail] at ends
    obtain ⟨fields, middle, each, makes, rfl⟩ := ends
    cases child with
    | some made => exact .group shape (sound.all each) makes
    | none =>
      cases manner with
      | definition => exact .dropped shape (sound.all each) makes
      | property => cases something rfl
      | typed => cases something rfl
  | reference other members =>
    rw [shape] at ends
    cases sided : manner.side with
    | definition =>
      have same : manner = .definition := by cases manner <;> first | rfl | cases sided
      subst same
      exact sound.reference shape ends
    | property =>
      simp only [sided, Walker.perform, ends_bind, ends_pure] at ends
      obtain ⟨taken, _, referred, rfl, rfl⟩ := ends
      obtain ⟨target, field, refers, known, takes, rfl⟩ := ends_propertyReference.mp referred
      exact .declared sided shape refers known takes
  | combination name members combinator =>
    rw [shape] at ends
    cases sided : manner.side with
    | definition =>
      have same : manner = .definition := by cases manner <;> first | rfl | cases sided
      subst same
      obtain ⟨branches, used, middle, listed, taken, ⟨rfl, rfl, rfl⟩ | ⟨branch, others, rfl, walked⟩⟩ :=
        ends_definitionBranch.mp ends
      · exact .empty shape listed taken
      · exact .first shape listed taken (sound.definition walked)
    | property =>
      simp only [sided, Walker.perform, ends_bind, ends_pure] at ends
      obtain ⟨made, _, chosen, rfl, rfl⟩ := ends
      obtain ⟨branches, listed, ⟨structural, used, middle, fields, taken, merged, rfl⟩ |
        ⟨scalars, alternative, branch, middle, taken, walked⟩⟩ := ends_propertyBranch.mp chosen
      · exact .merged sided shape listed structural taken (sound.merge merged)
      · exact .scalar sided shape listed scalars alternative taken (sound.typed walked)

theorem ends_expect {name : Option String} {child : Option Field} {field : Field} :
    (expect name child : Resolve σ Field).Ends before field after ↔ child = some field ∧ before = after := by
  cases child with
  | some known => simp only [expect, ends_pure, Option.some.injEq, @eq_comm _ field]
  | none => simp [expect, ends_fail]

theorem Sound.expected (sound : Sound context walker) (manner : Manner) {site : Site} {node : Json} {field : Field}
    (ends : (Walker.perform context walker manner.side (Shape.ofNode manner site node) >>= expect site.name).Ends
      before field after) :
    Yields context (.node manner site node) before [field] after := by
  obtain ⟨child, _, performed, ends⟩ := ends_bind.mp ends
  obtain ⟨rfl, rfl⟩ := ends_expect.mp ends
  exact sound.perform manner (fun _ => rfl) performed

theorem sound_walker (context : Context σ) (bound : Nat) : Sound context (FieldTree.walker context bound) := by
  induction bound with
  | zero =>
    intro manner site node before fields after ends
    cases manner with
    | definition =>
      obtain ⟨_, _, impossible, _⟩ := ends_bind.mp ends
      exact (ends_fail.mp impossible).elim
    | property =>
      obtain ⟨_, _, impossible, _⟩ := ends_bind.mp ends
      exact (ends_fail.mp impossible).elim
    | typed =>
      cases node with
      | object members =>
        obtain ⟨_, _, impossible, _⟩ := ends_bind.mp ends
        exact (ends_fail.mp impossible).elim
      | _ => exact (ends_fail.mp ends).elim
  | succ bound ih =>
    intro manner site node before fields after ends
    cases manner with
    | definition =>
      obtain ⟨child, _, walked, ends⟩ := ends_bind.mp ends
      obtain ⟨rfl, rfl⟩ := ends_pure.mp ends
      rw [definition_succ] at walked
      exact ih.perform .definition (fun impossible => by cases impossible) walked
    | property =>
      obtain ⟨field, _, walked, ends⟩ := ends_bind.mp ends
      obtain ⟨rfl, rfl⟩ := ends_pure.mp ends
      rw [property_succ] at walked
      exact ih.expected .property walked
    | typed =>
      cases node with
      | object members =>
        obtain ⟨field, _, walked, ends⟩ := ends_bind.mp ends
        obtain ⟨rfl, rfl⟩ := ends_pure.mp ends
        rw [typed_succ] at walked
        exact ih.expected .typed walked
      | _ => exact (ends_fail.mp ends).elim

end Walker
end FieldTree
