import FieldTree.Proofs.Resolution.Keyed
import FieldTree.Proofs.Resolution.Moments

/-! What the walk of a node among the properties leads to. Each shape leaves one way on. Where a law for fields can be
broken by merging branches only, the fields that come of a node abide by it exactly if no branches are merged on the way
that break it. -/

namespace FieldTree

variable {σ : Type}

/-- Of the ways on from a combination, the one that is taken: branches are merged if all are structural, and one of them
is walked as a scalar if none is. -/
def Task.Calls : Task → Task → Prop
  | .node manner site value, .merge _ _ => ∀ {name members combinator branches},
    Shape.ofNode manner site value = .combination name members combinator →
    Node.branches members combinator name = .ok branches → branches.all Node.isStructural = true
  | .node manner site value, .node .typed _ _ => ∀ {name members combinator branches},
    Shape.ofNode manner site value = .combination name members combinator →
    Node.branches members combinator name = .ok branches → branches.all Node.isStructural = false
  | _, _ => True

/-- What a task leads to, each with the state in which it begins. -/
inductive Reaches (context : Context σ) : Task → State σ → Task → State σ → Prop
  | refl {task before} : Reaches context task before task before
  | step {task before task' before' last ended} (starts : Starts context task before task' before')
    (calls : task.Calls task') (onward : Reaches context task' before' last ended) : Reaches context task before last ended

/-- No branches are merged on the way, for this name and with these definitions, to which this applies. -/
def Task.Avoids (context : Context σ) (bad : Option String → List Members → Entries Field → Prop) (task : Task)
    (before : State σ) : Prop :=
  ∀ {name branches before'}, Reaches context task before (.merge name branches) before' →
    ¬bad name branches before'.cache

/-- What the task itself merges. -/
def Task.Merges (bad : Option String → List Members → Entries Field → Prop) (cache : Entries Field) : Task → Prop
  | .merge name branches => bad name branches cache
  | _ => False

section
variable {context : Context σ} {before : State σ}

theorem Reaches.keeps {holds : Task → State σ → Prop}
    (step : ∀ {task before task' before'}, holds task before → Starts context task before task' before' → holds task' before')
    {task last : Task} {ended : State σ} (reaches : Reaches context task before last ended) (here : holds task before) :
    holds last ended := by
  induction reaches with
  | refl => exact here
  | step starts _ _ ih => exact ih (step here starts)

theorem Reaches.cache_of_property {task last : Task} {ended : State σ} (reaches : Reaches context task before last ended)
    (side : task.side = .property) : ended.cache = before.cache := by
  induction reaches with
  | refl => rfl
  | step starts _ _ ih => exact (ih (starts.side_eq.trans side)).trans (starts.cache_of_property side)

/-! Each shape leaves one way on. -/

/-- What the walk of a node of this shape among the properties goes on to. -/
def Shape.Onward (context : Context σ) (before : State σ) (task : Task) (begun : State σ) : Shape → Prop
  | .group inner _ => task = .all .property inner ∧ begun = before
  | .combination name members combinator => ∃ branches used, Node.branches members combinator name = .ok branches ∧
    (Walker.take context name combinator branches).Ends before used begun ∧
      if branches.all Node.isStructural then task = .merge name used
      else ∃ branch, used = [branch] ∧ task = .node .typed (.named name) (.object branch)
  | _ => False

variable {manner : Manner} {site : Site} {node : Json}

theorem Starts.onward {task : Task} {begun : State σ} (starts : Starts context (.node manner site node) before task begun)
    (calls : (Task.node manner site node).Calls task) (side : manner.side = .property) {shape : Shape}
    (told : Shape.ofNode manner site node = shape) : shape.Onward context before task begun := by
  subst told
  cases starts with
  | inside shape =>
    rw [shape, side]
    exact ⟨rfl, rfl⟩
  | body => cases side
  | first => cases side
  | merge _ shape listed taken =>
    have structural := calls shape listed
    rw [shape]
    refine ⟨_, _, listed, taken, ?_⟩
    rw [if_pos structural]
  | scalar _ shape listed taken =>
    have scalars := calls shape listed
    rw [shape]
    refine ⟨_, _, listed, taken, ?_⟩
    rw [if_neg (Bool.eq_false_iff.mp scalars)]
    exact ⟨_, rfl, rfl⟩

end

namespace Task

variable {context : Context σ} {bad : Option String → List Members → Entries Field → Prop} {before middle : State σ}

theorem avoids_iff {task : Task} :
    task.Avoids context bad before ↔ ¬task.Merges bad before.cache ∧
      ∀ {task' before'}, Starts context task before task' before' → task.Calls task' →
        task'.Avoids context bad before' := by
  constructor
  · intro avoids
    refine ⟨?_, fun starts calls _ _ _ onward => avoids (.step starts calls onward)⟩
    cases task with
    | merge => exact avoids .refl
    | _ => exact id
  · rintro ⟨here, later⟩ name branches before' reaches
    cases reaches with
    | refl => exact here
    | step starts calls onward => exact later starts calls onward

section
variable {manner : Manner} {site : Site} {node : Json}

theorem avoids_leaf {field : Field} (side : manner.side = .property)
    (shape : Shape.ofNode manner site node = .leaf field) : (Task.node manner site node).Avoids context bad before :=
  avoids_iff.mpr ⟨id, fun starts calls => (starts.onward calls side shape).elim⟩

theorem avoids_reference {other : Site} {members : Members} (side : manner.side = .property)
    (shape : Shape.ofNode manner site node = .reference other members) :
    (Task.node manner site node).Avoids context bad before :=
  avoids_iff.mpr ⟨id, fun starts calls => (starts.onward calls side shape).elim⟩

theorem avoids_group {inner : List Inner} {making : Making} (side : manner.side = .property)
    (shape : Shape.ofNode manner site node = .group inner making) :
    (Task.node manner site node).Avoids context bad before ↔ (Task.all manner.side inner).Avoids context bad before := by
  refine avoids_iff.trans ⟨fun ⟨_, later⟩ => later (.inside shape) trivial, fun avoids => ⟨id, fun starts calls => ?_⟩⟩
  obtain ⟨rfl, rfl⟩ := starts.onward calls side shape
  rwa [side] at avoids

variable {name : Option String} {members : Members} {combinator : Combinator} {branches : List Members}

theorem avoids_merged {used : List Members} (side : manner.side = .property)
    (shape : Shape.ofNode manner site node = .combination name members combinator)
    (listed : Node.branches members combinator name = .ok branches) (structural : branches.all Node.isStructural = true)
    (taken : (Walker.take context name combinator branches).Ends before used middle) :
    (Task.node manner site node).Avoids context bad before ↔ (Task.merge name used).Avoids context bad middle := by
  refine avoids_iff.trans ⟨fun ⟨_, later⟩ => later (.merge side shape listed taken) ?_, fun avoids =>
    ⟨id, fun starts calls => ?_⟩⟩
  · intro _ _ _ _ shape' listed'
    cases shape.symm.trans shape'
    cases listed.symm.trans listed'
    exact structural
  · obtain ⟨_, _, listed', taken', goes⟩ := starts.onward calls side shape
    cases listed.symm.trans listed'
    cases taken.symm.trans taken'
    rw [if_pos structural] at goes
    exact goes ▸ avoids

theorem avoids_scalar {branch : Members} (side : manner.side = .property)
    (shape : Shape.ofNode manner site node = .combination name members combinator)
    (listed : Node.branches members combinator name = .ok branches) (scalars : branches.all Node.isStructural = false)
    (taken : (Walker.take context name combinator branches).Ends before [branch] middle) :
    (Task.node manner site node).Avoids context bad before ↔
      (Task.node .typed (.named name) (.object branch)).Avoids context bad middle := by
  refine avoids_iff.trans ⟨fun ⟨_, later⟩ => later (.scalar side shape listed taken) ?_, fun avoids =>
    ⟨id, fun starts calls => ?_⟩⟩
  · intro _ _ _ _ shape' listed'
    cases shape.symm.trans shape'
    cases listed.symm.trans listed'
    exact scalars
  · obtain ⟨_, _, listed', taken', goes⟩ := starts.onward calls side shape
    cases listed.symm.trans listed'
    cases taken.symm.trans taken'
    rw [if_neg (Bool.eq_false_iff.mp scalars)] at goes
    obtain ⟨_, same, rfl⟩ := goes
    cases same
    exact avoids

end

theorem avoids_nil (side : Side) : (Task.all side []).Avoids context bad before :=
  avoids_iff.mpr ⟨id, fun starts _ => by cases starts⟩

theorem avoids_cons {side : Side} {inner : Inner} {rest : List Inner} {fields : List Field}
    (walked : Yields context (.node side.manner inner.site inner.node) before fields middle) :
    (Task.all side (inner :: rest)).Avoids context bad before ↔
      (Task.node side.manner inner.site inner.node).Avoids context bad before ∧
        (Task.all side rest).Avoids context bad (middle.noted inner fields) := by
  refine avoids_iff.trans ⟨fun ⟨_, onward⟩ => ⟨onward .here trivial, onward (.later walked) trivial⟩, fun avoids =>
    ⟨id, fun starts _ => ?_⟩⟩
  cases starts with
  | here => exact avoids.1
  | later walked' =>
    obtain ⟨rfl, rfl⟩ := walked.unique walked'
    exact avoids.2

theorem avoids_mergeNil {name : Option String} : (Task.merge name []).Avoids context bad before ↔
    ¬bad name [] before.cache :=
  avoids_iff.trans (and_iff_left fun starts _ => by cases starts)

theorem avoids_mergeInline {name : Option String} {branch : Members} {rest : List Members} {fields : List Field}
    (inline : Node.isReference branch = false)
    (walked : Yields context (.all .property (Shape.unlisted (Json.members (branch.given? "properties")))) before fields
      middle) :
    (Task.merge name (branch :: rest)).Avoids context bad before ↔ ¬bad name (branch :: rest) before.cache ∧
      (Task.all .property (Shape.unlisted (Json.members (branch.given? "properties")))).Avoids context bad before ∧
        (Task.merge name rest).Avoids context bad middle := by
  refine avoids_iff.trans (and_congr_right fun _ => ⟨fun onward => ⟨onward (.inline inline) trivial,
    onward (.afterInline inline walked) trivial⟩, fun avoids => fun starts _ => ?_⟩)
  cases starts with
  | inline => exact avoids.1
  | afterInline _ walked' =>
    obtain ⟨rfl, rfl⟩ := walked.unique walked'
    exact avoids.2
  | afterReference reference => cases inline.symm.trans reference

theorem avoids_mergeReference {name : Option String} {branch : Members} {rest : List Members}
    (reference : Node.isReference branch = true) :
    (Task.merge name (branch :: rest)).Avoids context bad before ↔
      ¬bad name (branch :: rest) before.cache ∧ (Task.merge name rest).Avoids context bad before := by
  refine avoids_iff.trans (and_congr_right fun _ => ⟨fun onward => onward (.afterReference reference) trivial,
    fun avoids => fun starts _ => ?_⟩)
  cases starts with
  | inline inline => cases inline.symm.trans reference
  | afterInline inline => cases inline.symm.trans reference
  | afterReference => exact avoids

end Task

/-- A law for fields that nothing but merging may break, for tasks that fit. The fields gathered from branches make an
object that abides by the law if they are gathered well. It depends on the definitions whether they are. -/
structure Field.MergeLaw (context : Context σ) (fits : Task → State σ → Prop) (holds : Field → Prop)
    (gathered : List Field → Prop) (bad : Option String → List Members → Entries Field → Prop) : Prop where
  side : ∀ {task before}, fits task before → task.side = .property
  starts : ∀ {task before task' before'}, fits task before → Starts context task before task' before' → fits task' before'
  leaf : ∀ {manner site node field}, Shape.ofNode manner site node = .leaf field → holds field
  made : ∀ {manner site node inner making before fields after made}, fits (.node manner site node) before →
    Shape.ofNode manner site node = .group inner making → Yields context (.all manner.side inner) before fields after →
    making.make fields = .ok (some made) → holds made
  takeOver : ∀ {task before target field site members taken}, fits task before → before.cache.get? target = some field →
    Site.takeOver site members field = .ok taken → taken.Everywhere holds
  added : ∀ {task before target field name branch fields}, fits task before → before.cache.get? target = some field →
    Field.added name branch field = .ok fields → ∀ one ∈ fields, one.Everywhere holds
  merged : ∀ {name fields}, holds (.object name (some false) fields []) ↔ gathered fields
  nil : ∀ {name cache}, gathered [] ∧ ¬bad name [] cache
  inline : ∀ {name branch rest before fields middle others after}, fits (.merge name (branch :: rest)) before →
    Node.isReference branch = false →
    Yields context (.all .property (Shape.unlisted (Json.members (branch.given? "properties")))) before fields middle →
    Yields context (.merge name rest) middle others after →
    (gathered (fields ++ others) ↔ ¬bad name (branch :: rest) before.cache ∧ gathered others)
  reference : ∀ {name branch rest before target field fields others after}, fits (.merge name (branch :: rest)) before →
    Node.isReference branch = true → Node.target branch = .ok target → before.cache.get? target = some field →
    Field.added name branch field = .ok fields → Yields context (.merge name rest) before others after →
    (gathered (fields ++ others) ↔ ¬bad name (branch :: rest) before.cache ∧ gathered others)

/-- The fields that come of the task abide by the law at any depth, and those of a combination are gathered well. -/
def Task.Abides (holds : Field → Prop) (gathered : List Field → Prop) : Task → List Field → Prop
  | .merge _ _, fields => gathered fields ∧ ∀ field ∈ fields, field.Everywhere holds
  | _, fields => ∀ field ∈ fields, field.Everywhere holds

theorem Yields.abides_iff {context : Context σ} {fits : Task → State σ → Prop} {holds : Field → Prop}
    {gathered : List Field → Prop} {bad : Option String → List Members → Entries Field → Prop}
    (law : Field.MergeLaw context fits holds gathered bad) {task : Task} {fields : List Field} {before after : State σ}
    (yields : Yields context task before fields after) (fit : fits task before) :
    task.Abides holds gathered fields ↔ task.Avoids context bad before := by
  induction yields with
  | leaf shape =>
    refine iff_of_true (List.forall_mem_singleton.mpr ?_) (Task.avoids_leaf (law.side fit) shape)
    have here := law.leaf shape
    obtain ⟨type, rfl⟩ := Shape.ofNode_leaf shape
    exact Field.everywhere_iff.mpr ⟨here, List.forall_mem_nil _⟩
  | group shape each makes ih =>
    have inside := ih (law.starts fit (.inside shape))
    refine Iff.trans ?_ (inside.trans (Task.avoids_group (law.side fit) shape).symm)
    have here := law.made fit shape each makes
    rw [← Yields.children_of_make shape each makes]
    exact List.forall_mem_singleton.trans (Field.everywhere_iff.trans (and_iff_right here))
  | dropped => cases law.side fit
  | reused => cases law.side fit
  | unexpanded => cases law.side fit
  | extracted => cases law.side fit
  | declared side shape _ known takes =>
    exact iff_of_true (List.forall_mem_singleton.mpr (law.takeOver fit known takes)) (Task.avoids_reference side shape)
  | empty => cases law.side fit
  | first => cases law.side fit
  | merged side shape listed structural taken _ ih =>
    have inside := ih (law.starts fit (.merge side shape listed taken))
    refine Iff.trans ?_ (inside.trans (Task.avoids_merged side shape listed structural taken).symm)
    exact List.forall_mem_singleton.trans (Field.everywhere_iff.trans (and_congr_left' law.merged))
  | scalar side shape listed scalars _ taken _ ih =>
    have inside := ih (law.starts fit (.scalar side shape listed taken))
    exact inside.trans (Task.avoids_scalar side shape listed scalars.1 taken).symm
  | allNil => exact iff_of_true (List.forall_mem_nil _) (Task.avoids_nil _)
  | allCons here _ ihHere ihLater =>
    have both := and_congr (ihHere (law.starts fit .here)) (ihLater (law.starts fit (.later here)))
    exact List.forall_mem_append.trans (both.trans (Task.avoids_cons here).symm)
  | mergeNil =>
    exact iff_of_true ⟨(@law.nil none []).1, List.forall_mem_nil _⟩ (Task.avoids_mergeNil.mpr law.nil.2)
  | mergeInline inline here later ihHere ihLater =>
    have both := and_congr (ihHere (law.starts fit (.inline inline)))
      (ihLater (law.starts fit (.afterInline inline here)))
    refine Iff.trans ?_ (Task.avoids_mergeInline inline here).symm
    rw [← both, Task.Abides, law.inline fit inline here later, List.forall_mem_append]
    exact and_assoc.trans (and_congr_right fun _ => and_left_comm)
  | mergeReference reference refers known adds later ih =>
    have inside := law.added fit known adds
    refine Iff.trans ?_ (Task.avoids_mergeReference reference).symm
    rw [← ih (law.starts fit (.afterReference reference)), Task.Abides,
      law.reference fit reference refers known adds later, List.forall_mem_append, and_iff_right inside]
    exact and_assoc

namespace Document

/-- The pass over the properties of a document with this root comes to the task, in this state. -/
def Meets (root : Members) (selector : Selector σ) (start : σ) (task : Task) (before : State σ) : Prop :=
  ∃ middle, DefinesAll (context root selector) root.declarations (State.fresh start) middle ∧
    Reaches (context root selector) (.all .property (outer root)) middle task before

variable {root : Members} {selector : Selector σ} {start : σ} {properties : List Field} {middle after : State σ}

/-- Nothing is cached in the pass over the properties. -/
theorem Meets.cache (passes : Passes root selector start middle properties after) {task : Task} {before : State σ}
    (meets : Meets root selector start task before) : before.cache = after.cache := by
  obtain ⟨_, defines, reaches⟩ := meets
  cases passes.definitions.unique defines
  exact (reaches.cache_of_property rfl).trans (passes.properties.cache_of_property rfl).symm

theorem meets_iff (passes : Passes root selector start middle properties after)
    (bad : Option String → List Members → Entries Field → Prop) :
    (∃ name branches before, Meets root selector start (.merge name branches) before ∧ bad name branches after.cache) ↔
      ¬(Task.all .property (outer root)).Avoids (context root selector) bad middle := by
  constructor
  · rintro ⟨name, branches, before, meets, applies⟩ avoids
    rw [← meets.cache passes] at applies
    obtain ⟨_, defines, reaches⟩ := meets
    cases passes.definitions.unique defines
    exact avoids reaches applies
  · intro met
    by_contra none
    refine met fun {name branches before} reaches applies => none ⟨name, branches, before, ?_⟩
    have meets : Meets root selector start (.merge name branches) before := ⟨middle, passes.definitions, reaches⟩
    exact ⟨meets, meets.cache passes ▸ applies⟩

end Document
end FieldTree
