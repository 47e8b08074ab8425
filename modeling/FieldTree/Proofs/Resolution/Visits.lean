import FieldTree.Proofs.Field.Parts
import FieldTree.Proofs.Resolution.Presence

/-! The tasks that are begun in the course of a resolution, each with the state in which it is begun; how it ends is
told by that. Every object in a resolved schema, at any depth, was made by one of them. -/

namespace FieldTree

variable {σ : Type}

/-- What a task begins itself. -/
inductive Starts (context : Context σ) : Task → State σ → Task → State σ → Prop
  | inside {manner site node inner making before} (shape : Shape.ofNode manner site node = .group inner making) :
    Starts context (.node manner site node) before (.all manner.side inner) before
  | body {site node other members target body before}
    (shape : Shape.ofNode .definition site node = .reference other members)
    (refers : Node.target members = .ok target) (unknown : before.cache.get? target = none)
    (free : target ∉ before.guard)
    (given : context.definitions.given? target = some (.object body)) :
    Starts context (.node .definition site node) before
      (.node .definition { other with name := some target } (.object body)) (before.under (target :: before.guard))
  | first {site node name members combinator branches branch others before middle}
    (shape : Shape.ofNode .definition site node = .combination name members combinator)
    (listed : Node.branches members combinator name = .ok branches)
    (taken : (Walker.take context name combinator branches).Ends before (branch :: others) middle) :
    Starts context (.node .definition site node) before (.node .definition (.named name) (.object branch)) middle
  | merge {manner site node name members combinator branches used before middle} (side : manner.side = .property)
    (shape : Shape.ofNode manner site node = .combination name members combinator)
    (listed : Node.branches members combinator name = .ok branches)
    (taken : (Walker.take context name combinator branches).Ends before used middle) :
    Starts context (.node manner site node) before (.merge name used) middle
  | scalar {manner site node name members combinator branches branch before middle} (side : manner.side = .property)
    (shape : Shape.ofNode manner site node = .combination name members combinator)
    (listed : Node.branches members combinator name = .ok branches)
    (taken : (Walker.take context name combinator branches).Ends before [branch] middle) :
    Starts context (.node manner site node) before (.node .typed (.named name) (.object branch)) middle
  | here {side inner rest before} :
    Starts context (.all side (inner :: rest)) before (.node side.manner inner.site inner.node) before
  | later {side inner rest before fields middle}
    (walked : Yields context (.node side.manner inner.site inner.node) before fields middle) :
    Starts context (.all side (inner :: rest)) before (.all side rest) (middle.noted inner fields)
  | inline {name branch rest before} (inline : Node.isReference branch = false) :
    Starts context (.merge name (branch :: rest)) before
      (.all .property (Shape.unlisted (Json.members (branch.given? "properties")))) before
  | afterInline {name branch rest before fields middle} (inline : Node.isReference branch = false)
    (walked : Yields context
      (.all .property (Shape.unlisted (Json.members (branch.given? "properties")))) before fields middle) :
    Starts context (.merge name (branch :: rest)) before (.merge name rest) middle
  | afterReference {name branch rest before} (reference : Node.isReference branch = true) :
    Starts context (.merge name (branch :: rest)) before (.merge name rest) before

/-- The walk that the pass over the definitions begins for one of them. -/
inductive Begins (context : Context σ) (name : String) (node : Json) (before : State σ) : Task → State σ → Prop
  | plain (plain : node.isPlain = true) :
    Begins context name node before (.node .definition (.named (some name)) node) (before.logged (.resolving name))
  | aliased {members target known} (same : node = .object members) (refers : Node.target members = .ok target)
    (found : before.cache.get? target = some known) :
    Begins context name node before (.node .definition (.named (some name)) node) (before.logged (.resolving name))
  | ahead {members target body} (same : node = .object members) (refers : Node.target members = .ok target)
    (unknown : before.cache.get? target = none) (given : context.definitions.given? target = some (.object body)) :
    Begins context name node before (.node .definition (.named (some name)) (.object body))
      ((before.logged (.resolving name)).under (target :: before.guard))

/-- All tasks that are begun when a document with this root is resolved. -/
inductive Document.Visits (root : Members) (selector : Selector σ) (start : σ) : Task → State σ → Prop
  | definition {passed name node rest before task begun} (declared : root.declarations = passed ++ (name, node) :: rest)
    (earlier : DefinesAll (context root selector) passed (State.fresh start) before)
    (begins : Begins (context root selector) name node before task begun) : Visits root selector start task begun
  | properties {middle} (defined : DefinesAll (context root selector) root.declarations (State.fresh start) middle) :
    Visits root selector start (.all .property (outer root)) middle
  | inner {task before task' before'} (visited : Visits root selector start task before)
    (starts : Starts (context root selector) task before task' before') : Visits root selector start task' before'

/-- How the fields of an object were gathered by tasks that were visited: as what came of the nodes inside a node, or
of the branches of a combination. -/
inductive Built (context : Context σ) (visited : Task → State σ → Prop) : List Field → Prop
  | group {manner site node inner making before fields after} (begun : visited (.node manner site node) before)
    (shape : Shape.ofNode manner site node = .group inner making)
    (each : Yields context (.all manner.side inner) before fields after) : Built context visited fields
  | merged {manner site node name members combinator before used middle fields after}
    (begun : visited (.node manner site node) before)
    (shape : Shape.ofNode manner site node = .combination name members combinator)
    (walked : Yields context (.merge name used) middle fields after) : Built context visited fields
  | empty : Built context visited []

/-- A law for the fields that come of tasks that are visited. A change of the name does not break it, nor does a change
of being required, unless the field is a scalar; and whatever is made abides by it. -/
structure Field.Law (context : Context σ) (visited : Task → State σ → Prop) (holds : Field → Prop) : Prop where
  rename : ∀ {field} name, holds field → holds (field.rename name)
  withRequired : ∀ {field} required inObject, field.kind.isScalar = false → holds field →
    holds (field.withRequired required inObject)
  leaf : ∀ {manner site node field}, Shape.ofNode manner site node = .leaf field → holds field
  made : ∀ {manner site node inner making before fields after made}, visited (.node manner site node) before →
    Shape.ofNode manner site node = .group inner making → Yields context (.all manner.side inner) before fields after →
    making.make fields = .ok (some made) → holds made
  wrapped : ∀ {name node field made required},
    Node.arrayField name node (Field.rename none field) required = .ok made → holds made
  merged : ∀ {manner site node name members combinator before used middle fields after}, manner.side = .property →
    visited (.node manner site node) before → Shape.ofNode manner site node = .combination name members combinator →
    visited (.merge name used) middle → Yields context (.merge name used) middle fields after →
    holds (.object name (some false) fields [])
  empty : ∀ name, holds (.object name none [] [])

/-- Every object in the field, at any depth, was built. -/
def Field.Traced (context : Context σ) (visited : Task → State σ → Prop) (field : Field) : Prop :=
  field.Everywhere fun part => ∀ fields, part.contents? = some fields → Built context visited fields

def Entries.Traced (context : Context σ) (visited : Task → State σ → Prop) (cache : Entries Field) : Prop :=
  ∀ name field, cache.get? name = some field → field.Traced context visited

/-- Nothing is lost when a field is made of fields. -/
theorem Yields.children_of_make {context : Context σ} {manner : Manner} {site : Site} {node : Json} {inner : List Inner}
    {making : Making} {fields : List Field} {made : Field} {before after : State σ}
    (shape : Shape.ofNode manner site node = .group inner making)
    (each : Yields context (.all manner.side inner) before fields after) (makes : making.make fields = .ok (some made)) :
    made.children = fields := by
  obtain ⟨members, place, rfl, _, form⟩ := Shape.ofNode_object shape (by simp)
  cases form with
  | array =>
    cases fields with
    | nil => cases makes
    | cons element rest =>
      obtain ⟨minItems, unique, rfl, _⟩ := Making.make_array makes
      rw [each.lone]
      rfl
  | listed =>
    cases makes
    rfl
  | map =>
    cases fields with
    | nil => cases makes
    | cons value rest =>
      cases makes
      rw [each.lone]
      rfl
  | own =>
    cases makes
    rfl

/-- A reference adds its target itself, or the fields of it. -/
theorem Field.added_cases {field : Field} {name : Option String} {branch : Members} {fields : List Field}
    (adds : field.added name branch = .ok fields) :
    fields = [field.rename name] ∧ (Node.hasType branch = true ∨ field.contents? = none) ∨
      Node.hasType branch = false ∧ field.contents? = some fields := by
  unfold added at adds
  split at adds
  next itself =>
    cases adds
    refine .inl ⟨rfl, ?_⟩
    rcases Bool.or_eq_true_iff.mp itself with typed | collection
    · exact .inl typed
    · cases field with
      | object => cases collection
      | _ => exact .inr rfl
  next other =>
    obtain ⟨untyped, single⟩ := Bool.or_eq_false_iff.mp (Bool.eq_false_iff.mpr other)
    cases field with
    | scalar =>
      cases adds
      exact .inl ⟨rfl, .inr rfl⟩
    | array => cases adds
    | object =>
      cases adds
      exact .inr ⟨untyped, rfl⟩
    | map => cases adds

namespace Field.Law

variable {context : Context σ} {visited : Task → State σ → Prop} {holds : Field → Prop} {field : Field}

theorem everywhere_rename (law : Law context visited holds) (everywhere : field.Everywhere holds) (name : Option String) :
    (field.rename name).Everywhere holds :=
  everywhere.of_children (children_rename name field) (law.rename name)

theorem everywhere_takeOver (law : Law context visited holds) {site : Site} {node : Members} {taken : Field}
    (everywhere : field.Everywhere holds) (takes : site.takeOver node field = .ok taken) : taken.Everywhere holds := by
  unfold Site.takeOver at takes
  split at takes
  · have here := law.wrapped takes
    obtain ⟨minItems, rfl, _⟩ := Node.arrayField_of_ok none takes
    exact everywhere_iff.mpr ⟨here, List.forall_mem_singleton.mpr (law.everywhere_rename everywhere none)⟩
  · cases takes
    have renamed := law.everywhere_rename everywhere site.name
    unfold Walker.atSite
    split
    · exact renamed
    next composite =>
      refine renamed.of_children (children_withRequired _ _ _) (law.withRequired _ _ ?_)
      simpa only [kind_rename] using Bool.eq_false_iff.mpr composite

theorem everywhere_added (law : Law context visited holds) {name : Option String} {branch : Members}
    {fields : List Field} (everywhere : field.Everywhere holds) (adds : field.added name branch = .ok fields) :
    ∀ one ∈ fields, one.Everywhere holds := by
  rcases added_cases adds with ⟨rfl, _⟩ | ⟨_, inside⟩
  · exact List.forall_mem_singleton.mpr (law.everywhere_rename everywhere name)
  · exact children_of_contents inside ▸ (everywhere_iff.mp everywhere).2

end Field.Law

section
variable {context : Context σ} {visited : Task → State σ → Prop} {holds : Field → Prop} {before after : State σ}

/-- What comes of a task that is visited abides by the law, at any depth, and so does all that is cached meanwhile. -/
theorem Yields.upholds (law : Field.Law context visited holds) {task : Task} {fields : List Field}
    (yields : Yields context task before fields after)
    (closed : ∀ {task before task' before'}, visited task before → Starts context task before task' before' →
      visited task' before')
    (begun : visited task before) (cached : before.cache.Every fun _ field => field.Everywhere holds) :
    (after.cache.Every fun _ field => field.Everywhere holds) ∧ ∀ field ∈ fields, field.Everywhere holds := by
  induction yields with
  | leaf shape =>
    have here := law.leaf shape
    obtain ⟨type, rfl⟩ := Shape.ofNode_leaf shape
    exact ⟨cached, List.forall_mem_singleton.mpr (Field.everywhere_iff.mpr ⟨here, List.forall_mem_nil _⟩)⟩
  | group shape each makes ih =>
    obtain ⟨kept, inside⟩ := ih (closed begun (.inside shape)) cached
    refine ⟨kept, List.forall_mem_singleton.mpr (Field.everywhere_iff.mpr ⟨law.made begun shape each makes, ?_⟩)⟩
    rwa [Yields.children_of_make shape each makes]
  | dropped shape _ _ ih => exact ⟨(ih (closed begun (.inside shape)) cached).1, List.forall_mem_nil _⟩
  | @reused site node other members target field before _ _ known =>
    exact ⟨cached, List.forall_mem_singleton.mpr (law.everywhere_rename (cached target field known) other.name)⟩
  | unexpanded => exact ⟨cached, List.forall_mem_nil _⟩
  | @extracted site node other members target body fields before middle shape refers unknown free given _ ih =>
    obtain ⟨kept, inside⟩ := ih (closed begun (.body shape refers unknown free given)) cached
    refine ⟨kept.keep inside, fun field among => ?_⟩
    obtain ⟨made, member, rfl⟩ := List.mem_map.mp among
    exact law.everywhere_rename (inside made member) other.name
  | @declared _ _ _ _ _ target field _ _ _ _ _ known takes =>
    exact ⟨cached, List.forall_mem_singleton.mpr (law.everywhere_takeOver (cached target field known) takes)⟩
  | empty _ _ taken =>
    rw [(Walker.same_of_take taken).2]
    refine ⟨cached, List.forall_mem_singleton.mpr (Field.everywhere_iff.mpr ⟨law.empty _, List.forall_mem_nil _⟩)⟩
  | first shape listed taken _ ih =>
    rw [(Walker.same_of_take taken).2] at ih
    exact ih (closed begun (.first shape listed taken)) cached
  | merged side shape listed _ taken walked ih =>
    rw [(Walker.same_of_take taken).2] at ih
    have onward := closed begun (.merge side shape listed taken)
    obtain ⟨kept, inside⟩ := ih onward cached
    have here := law.merged side begun shape onward walked
    exact ⟨kept, List.forall_mem_singleton.mpr (Field.everywhere_iff.mpr ⟨here, inside⟩)⟩
  | scalar side shape listed _ _ taken _ ih =>
    rw [(Walker.same_of_take taken).2] at ih
    exact ih (closed begun (.scalar side shape listed taken)) cached
  | allNil => exact ⟨cached, List.forall_mem_nil _⟩
  | allCons here _ ihHere ihLater =>
    obtain ⟨kept, inside⟩ := ihHere (closed begun .here) cached
    rw [State.cache_noted] at ihLater
    obtain ⟨kept', inside'⟩ := ihLater (closed begun (.later here)) kept
    exact ⟨kept', List.forall_mem_append.mpr ⟨inside, inside'⟩⟩
  | mergeNil => exact ⟨cached, List.forall_mem_nil _⟩
  | mergeInline inline here _ ihHere ihLater =>
    obtain ⟨kept, inside⟩ := ihHere (closed begun (.inline inline)) cached
    obtain ⟨kept', inside'⟩ := ihLater (closed begun (.afterInline inline here)) kept
    exact ⟨kept', List.forall_mem_append.mpr ⟨inside, inside'⟩⟩
  | @mergeReference name branch rest target field fields others before after reference _ known adds _ ih =>
    obtain ⟨kept, inside⟩ := ih (closed begun (.afterReference reference)) cached
    exact ⟨kept, List.forall_mem_append.mpr ⟨law.everywhere_added (cached target field known) adds, inside⟩⟩

/-! Documents -/

theorem Defines.upholds (law : Field.Law context visited holds) {name : String} {node : Json}
    (defines : Defines context name node before after)
    (closed : ∀ {task before task' before'}, visited task before → Starts context task before task' before' →
      visited task' before')
    (begun : ∀ {task state}, Begins context name node before task state → visited task state)
    (cached : before.cache.Every fun _ field => field.Everywhere holds) :
    after.cache.Every fun _ field => field.Everywhere holds := by
  cases defines with
  | vanished plain walked => exact (walked.upholds law closed (begun (.plain plain)) cached).1
  | kept plain walked => exact (walked.upholds law closed (begun (.plain plain)) cached).1
  | @stored field after plain walked =>
    obtain ⟨kept, inside⟩ := walked.upholds law closed (begun (.plain plain)) cached
    exact @Entries.Every.keep _ _ _ _ [field] kept inside
  | aliased same _ refers found walked =>
    obtain ⟨kept, inside⟩ := walked.upholds law closed (begun (.aliased same refers found)) cached
    exact kept.keep inside
  | ahead same _ refers unknown _ given _ walked =>
    obtain ⟨kept, inside⟩ := walked.upholds law closed (begun (.ahead same refers unknown given)) cached
    exact Entries.Every.keep kept inside

end

namespace Document

variable {root : Members} {selector : Selector σ} {start : σ} {visited : Task → State σ → Prop}
  {holds : Field → Prop} {middle after : State σ} {properties : List Field}

theorem upholds_of_definesAll (law : Field.Law (context root selector) visited holds)
    (closed : ∀ {task before task' before'}, visited task before →
      Starts (context root selector) task before task' before' → visited task' before')
    (begun : ∀ {passed name node rest before task state}, root.declarations = passed ++ (name, node) :: rest →
      DefinesAll (context root selector) passed (State.fresh start) before →
      Begins (context root selector) name node before task state → visited task state)
    (defines : DefinesAll (context root selector) root.declarations (State.fresh start) middle) :
    middle.cache.Every fun _ field => field.Everywhere holds := by
  have onward : ∀ {members : Members} {before after : State σ},
      DefinesAll (context root selector) members before after →
      ∀ {passed : Members}, DefinesAll (context root selector) passed (State.fresh start) before →
        root.declarations = passed ++ members → (before.cache.Every fun _ field => field.Everywhere holds) →
          after.cache.Every fun _ field => field.Everywhere holds := by
    intro members before after defines
    induction defines with
    | nil => exact fun _ _ cached => cached
    | @cons name node rest before middle after here _ ih =>
      intro passed earlier declared cached
      refine ih (earlier.append (.cons here .nil)) (by rw [declared, List.append_assoc, List.singleton_append]) ?_
      exact here.upholds law closed (begun declared earlier) cached
  exact onward defines .nil rfl fun _ _ impossible => by cases impossible

theorem Visits.closed (task : Task) (before : State σ) (task' : Task) (before' : State σ)
    (visited : Visits root selector start task before)
    (starts : Starts (context root selector) task before task' before') : Visits root selector start task' before' :=
  .inner visited starts

/-- What is cached in the end, and the properties, abide by a law for all tasks that are visited. -/
theorem Passes.upholds (passes : Passes root selector start middle properties after)
    (law : Field.Law (context root selector) (Visits root selector start) holds) :
    (after.cache.Every fun _ field => field.Everywhere holds) ∧ ∀ field ∈ properties, field.Everywhere holds :=
  passes.properties.upholds law .inner (.properties passes.definitions)
    (upholds_of_definesAll law .inner .definition passes.definitions)

end Document

/-! Every object comes of a task that is visited. -/

theorem Field.Law.traced (context : Context σ) (visited : Task → State σ → Prop) :
    Law context visited fun part => ∀ fields, part.contents? = some fields → Built context visited fields where
  rename name built := by simpa only [contents?_rename] using built
  withRequired required inObject _ built := by simpa only [contents?_withRequired] using built
  leaf shape := by
    obtain ⟨type, rfl⟩ := Shape.ofNode_leaf shape
    exact fun fields impossible => by cases impossible
  made {_ _ _ _ making _ fields _ made} begun shape each makes := by
    cases making with
    | array site node =>
      cases fields with
      | nil => cases makes
      | cons element rest =>
        obtain ⟨minItems, unique, rfl, _⟩ := Making.make_array makes
        exact fun fields impossible => by cases impossible
    | object =>
      cases makes
      exact fun _ same => Option.some.inj same ▸ .group begun shape each
    | map site =>
      cases fields with
      | nil => cases makes
      | cons value rest =>
        cases makes
        exact fun fields impossible => by cases impossible
  wrapped wraps := by
    obtain ⟨minItems, rfl, _⟩ := Node.arrayField_of_ok none wraps
    exact fun fields impossible => by cases impossible
  merged _ begun shape _ walked := fun _ same => Option.some.inj same ▸ .merged begun shape walked
  empty _ := fun _ same => Option.some.inj same ▸ .empty

theorem Document.Passes.traced {root : Members} {selector : Selector σ} {start : σ} {middle after : State σ}
    {properties : List Field} (passes : Passes root selector start middle properties after) :
    after.cache.Traced (context root selector) (Visits root selector start) ∧
      ∀ field ∈ properties, field.Traced (context root selector) (Visits root selector start) :=
  passes.upholds (.traced _ _)

end FieldTree
