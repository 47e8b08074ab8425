import FieldTree.Proofs.Resolution.Alike
import FieldTree.Proofs.Resolution.Extends

/-! Where no cycle of references can be reached, the walk leaves nothing out: whatever is cached meanwhile, a node comes
to what the cache that is left behind says of its references. A name under guard leads to everything that the
current node refers to, so on an acyclic node the guard refuses nothing. -/

namespace FieldTree
open Relation

variable {σ : Type}

/-- The bodies that a definition may come of: its own or, once the pass over the definitions has come to it, the body
that it is an alias of. -/
inductive Source (definitions : Members) (passed : List String) (name : String) : Members → Prop
  | own {body} (given : definitions.given? name = some (.object body)) : Source definitions passed name body
  | behind {members target body} (among : name ∈ passed) (given : definitions.given? name = some (.object members))
    (reference : Node.isReference members = true) (refers : Node.target members = .ok target)
    (stands : definitions.given? target = some (.object body)) : Source definitions passed name body

theorem Source.leads {definitions : Members} {passed : List String} {name : String} {body : Members}
    (source : Source definitions passed name body) {target : String} (among : target ∈ (Json.object body).references) :
    TransGen (Refers definitions) name target := by
  cases source with
  | own given => exact .single ⟨_, given, among⟩
  | behind _ given reference refers stands =>
    exact (TransGen.single ⟨_, given, Node.mem_references reference refers⟩).tail ⟨_, stands, among⟩

theorem Source.later {definitions : Members} {passed passed' : List String} {name : String} {body : Members}
    (source : Source definitions passed name body) (more : ∀ name ∈ passed, name ∈ passed') :
    Source definitions passed' name body := by
  cases source with
  | own given => exact .own given
  | behind among given reference refers stands => exact .behind (more name among) given reference refers stands

def Entries.knows (cache : Entries Field) (name : String) (field : Field) : Prop := cache.get? name = some field

/-- The names that are clear lead to clear ones only, and to no cycle. -/
structure Members.Closed (definitions : Members) (clear : String → Prop) : Prop where
  acyclic : ∀ {name}, clear name → Acyclic definitions name
  step : ∀ {name target}, clear name → Refers definitions name target → clear target

theorem Members.closed_acyclic (definitions : Members) : definitions.Closed (Acyclic definitions) :=
  ⟨id, Acyclic.step⟩

theorem Members.Closed.trans {definitions : Members} {clear : String → Prop} (closed : definitions.Closed clear)
    {name target : String} (here : clear name) (path : TransGen (Refers definitions) name target) : clear target := by
  induction path with
  | single refers => exact closed.step here refers
  | tail _ refers ih => exact closed.step ih refers

/-- What is cached for a clear definition is what a body of it comes to, with the same cache. -/
def Entries.SettledOn (cache : Entries Field) (clear : String → Prop) (definitions : Members)
    (answer : Int → Except ChoiceError Int) (passed : List String) : Prop :=
  ∀ name field, clear name → cache.get? name = some field → ∃ site body, site.name = some name ∧
    Source definitions passed name body ∧ Settles answer cache.knows (.node .definition site (.object body)) [field]

/-- The same of all acyclic definitions. -/
abbrev Entries.Settled (cache : Entries Field) (definitions : Members) (answer : Int → Except ChoiceError Int)
    (passed : List String) : Prop :=
  cache.SettledOn (Acyclic definitions) definitions answer passed

/-- Every name under guard leads to all that the task refers to, unless it is on the side of the properties. -/
def Task.Behind (definitions : Members) (guard : Guard) (task : Task) : Prop :=
  task.side = .definition → ∀ name ∈ guard, ∀ target ∈ task.references, TransGen (Refers definitions) name target

/-- The task refers to clear names only, unless it is on the side of the properties. -/
def Task.Clear (clear : String → Prop) (task : Task) : Prop :=
  task.side = .definition → ∀ target ∈ task.references, clear target

abbrev Task.Acyclic (definitions : Members) (task : Task) : Prop := task.Clear (FieldTree.Acyclic definitions)

section
variable {definitions : Members} {guard : Guard} {task inner : Task} {clear : String → Prop}

theorem Task.Behind.leads (behind : task.Behind definitions guard) (leads : task.Leads inner) :
    inner.Behind definitions guard :=
  fun side name held target among => behind (leads.sides side) name held target (leads.references target among)

theorem Task.Clear.leads (clears : task.Clear clear) (leads : task.Leads inner) : inner.Clear clear :=
  fun side target among => clears (leads.sides side) target (leads.references target among)

theorem Task.Behind.of_property (side : task.side = .property) : task.Behind definitions guard := by
  intro impossible
  rw [side] at impossible
  cases impossible

theorem Task.Behind.unguarded (free : guard = []) : task.Behind definitions guard := by
  intro _ name held
  rw [free] at held
  cases held

/-- A target that is entered comes under guard; it leads to all that its body refers to. -/
theorem Task.Behind.enter {site : Site} {node : Json} {target : String} {body : Members}
    (behind : Task.Behind definitions guard (.node .definition site node)) (among : target ∈ node.references)
    (given : definitions.given? target = some (.object body)) (place : Site) :
    Task.Behind definitions (target :: guard) (.node .definition place (.object body)) := by
  intro _ name held reached deeper
  rcases List.mem_cons.mp held with rfl | outside
  · exact .single ⟨_, given, deeper⟩
  · exact (behind rfl name outside target among).tail ⟨_, given, deeper⟩

theorem Acyclic.body {name : String} {body : Members} (acyclic : FieldTree.Acyclic definitions name)
    (given : definitions.given? name = some (.object body)) (place : Site) :
    Task.Acyclic definitions (.node .definition place (.object body)) :=
  fun _ _ among => acyclic.step ⟨_, given, among⟩

theorem Members.Closed.body (closed : definitions.Closed clear) {name : String} (here : clear name) {body : Members}
    (given : definitions.given? name = some (.object body)) (place : Site) :
    Task.Clear clear (.node .definition place (.object body)) :=
  fun _ _ among => closed.step here ⟨_, given, among⟩

theorem Task.Clear.of_property (side : task.side = .property) : task.Clear clear := by
  intro impossible
  rw [side] at impossible
  cases impossible

end

theorem Combinator.used_of_take {context : Context σ} {answer : Int → Except ChoiceError Int}
    (answers : context.selector.Answers answer) {name : Option String} {combinator : Combinator}
    {branches used : List Members} {before after : State σ}
    (taken : (Walker.take context name combinator branches).Ends before used after) :
    combinator.used answer branches = some used := by
  unfold Walker.take at taken
  unfold Combinator.used
  split at taken
  next every =>
    simp only [every, ite_true, (Resolve.ends_pure.mp taken).1]
  next alternative =>
    obtain ⟨branch, _, selected, ends⟩ := Resolve.ends_bind.mp taken
    obtain ⟨rfl, rfl⟩ := Resolve.ends_pure.mp ends
    obtain ⟨index, selector, rfl, picked, _⟩ := Walker.ends_select.mp selected
    have answered : answer branches.length = .ok (index : Int) := by
      rw [← answers branches.length before.selector]
      unfold Selector.pick at picked
      split at picked
      · cases picked
      next chosen next choice =>
        split at picked
        · cases picked
          rw [choice]
          rfl
        · cases picked
    simp only [alternative, ite_false, answered, Int.natCast_nonneg, ite_true, Int.toNat_natCast, List.get_eq_getElem,
      List.getElem?_eq_getElem index.isLt, Option.map_some]

/-- What is settled stays settled when the cache grows. -/
theorem Settles.grow {answer : Int → Except ChoiceError Int} {task : Task} {fields : List Field}
    {before after : State σ}
    (settles : Settles answer before.cache.knows task fields) (grows : before.Extends after) :
    Settles answer after.cache.knows task fields :=
  settles.mono fun target _ field known => grows.known target field known

theorem Entries.SettledOn.later {cache : Entries Field} {clear : String → Prop} {definitions : Members}
    {answer : Int → Except ChoiceError Int} {passed passed' : List String}
    (settled : cache.SettledOn clear definitions answer passed) (more : ∀ name ∈ passed, name ∈ passed') :
    cache.SettledOn clear definitions answer passed' := by
  intro name field here known
  obtain ⟨site, body, named, source, settles⟩ := settled name field here known
  exact ⟨site, body, named, source.later more, settles⟩

/-- A field is kept under a clear name if a body of the definition comes to it, and if it is the field that is known
already in case there is one. -/
theorem Entries.SettledOn.keep {definitions : Members} {clear : String → Prop} (closed : definitions.Closed clear)
    {answer : Int → Except ChoiceError Int} {passed passed' : List String} {state : State σ} {name : String}
    {fields : List Field} (settled : state.cache.SettledOn clear definitions answer passed)
    (more : ∀ name ∈ passed, name ∈ passed')
    (agrees : clear name → ∀ old, state.cache.get? name = some old → fields = [old])
    (comes : clear name → ∃ site body field, fields = [field] ∧ site.name = some name ∧
      Source definitions passed' name body ∧
        Settles answer state.cache.knows (.node .definition site (.object body)) [field]) :
    (state.keep name fields).cache.SettledOn clear definitions answer passed' ∧
      ∀ other, clear other → ∀ field, state.cache.knows other field →
        (state.keep name fields).cache.knows other field := by
  have grows : ∀ other, clear other → ∀ field, state.cache.knows other field →
      (state.keep name fields).cache.knows other field := by
    intro other here field known
    by_cases same : name = other
    · subst same
      rw [agrees here field known]
      simp [Entries.knows, State.keep, State.stored]
    · exact (State.get?_keep state name fields same).trans known
  refine ⟨fun other field here known => ?_, grows⟩
  by_cases same : name = other
  · subst same
    obtain ⟨site, body, made, rfl, named, source, settles⟩ := comes here
    have kept : made = field := by simpa [State.keep, State.stored] using known
    refine ⟨site, body, named, source, kept ▸ settles.mono fun target among => grows target ?_⟩
    exact closed.trans here (source.leads among)
  · rw [State.get?_keep state name fields same] at known
    obtain ⟨site, body, named, source, settles⟩ := settled other field here known
    refine ⟨site, body, named, source.later more, settles.mono fun target among => grows target ?_⟩
    exact closed.trans here (source.leads among)

/-- The walk settles what it adds under clear names, and a task that refers to no others comes to what it yields. -/
theorem Yields.settlesOn {context : Context σ} {answer : Int → Except ChoiceError Int} {clear : String → Prop}
    (closed : context.definitions.Closed clear) (answers : context.selector.Answers answer)
    {passed : List String} {task : Task} {before after : State σ} {fields : List Field}
    (yields : Yields context task before fields after) (behind : task.Behind context.definitions before.guard)
    (settled : before.cache.SettledOn clear context.definitions answer passed) :
    after.cache.SettledOn clear context.definitions answer passed ∧
      (task.Clear clear → Settles answer after.cache.knows task fields) := by
  induction yields with
  | leaf shape => exact ⟨settled, fun _ => .leaf shape⟩
  | group shape _ makes ih =>
    have leads := Task.leads_group shape
    obtain ⟨kept, settles⟩ := ih (behind.leads leads) settled
    exact ⟨kept, fun clears => .group shape (settles (clears.leads leads)) makes⟩
  | dropped shape _ makes ih =>
    have leads := Task.leads_group shape
    obtain ⟨kept, settles⟩ := ih (behind.leads leads) settled
    refine ⟨kept, fun clears => ?_⟩
    obtain ⟨needs, rfl⟩ := Making.make_none makes
    have supplied := (Shape.ofNode_group shape).2.1 needs
    cases settles (clears.leads leads) with
    | allNil => exact absurd rfl supplied
  | reused shape refers known => exact ⟨settled, fun _ => .followed shape refers known⟩
  | @unexpanded site node other members target before shape refers unknown held =>
    refine ⟨settled, fun clears => ?_⟩
    have among := Task.mem_references shape refers
    exact absurd (behind rfl target held target among) (closed.acyclic (clears rfl target among)).irreflexive
  | @extracted site node other members target body fields before middle shape refers unknown free given inside ih =>
    have among := Task.mem_references shape refers
    obtain ⟨kept, settles⟩ := ih (behind.enter among given _) settled
    have new : middle.cache.get? target = none := (inside.extends.held target List.mem_cons_self).trans unknown
    have comes : clear target → ∃ field, fields = [field] ∧ Settles answer middle.cache.knows
        (.node .definition { other with name := some target } (.object body)) [field] := by
      intro here
      have made := settles (closed.body here given _)
      obtain ⟨field, rfl, _⟩ := made.named
      exact ⟨field, rfl, made⟩
    refine ⟨(kept.keep closed (fun _ among => among) (fun _ old known => ?_) fun here => ?_).1, fun clears => ?_⟩
    · rw [new] at known
      cases known
    · obtain ⟨field, single, made⟩ := comes here
      exact ⟨_, body, field, single, rfl, .own given, made⟩
    · obtain ⟨field, rfl, _⟩ := comes (clears rfl target among)
      refine .followed shape refers ?_
      simp [Entries.knows, State.keep, State.stored, State.under]
  | declared side shape refers known takes => exact ⟨settled, fun _ => .declared side shape refers known takes⟩
  | empty shape listed taken =>
    rw [(Walker.same_of_take taken).2]
    exact ⟨settled, fun _ => .empty shape listed (Combinator.used_of_take answers taken)⟩
  | @first site node name _ _ _ _ _ _ _ _ _ shape listed taken _ ih =>
    have used := Combinator.used_of_take answers taken
    have leads := Task.leads_branch shape listed used .definition (.named name) rfl
    obtain ⟨guard, cache⟩ := Walker.same_of_take taken
    rw [guard, cache] at ih
    obtain ⟨kept, settles⟩ := ih (behind.leads leads) settled
    exact ⟨kept, fun clears => .first shape listed used (settles (clears.leads leads))⟩
  | merged side shape listed structural taken _ ih =>
    rw [(Walker.same_of_take taken).2] at ih
    obtain ⟨kept, settles⟩ := ih (.of_property rfl) settled
    have merged := settles (.of_property rfl)
    exact ⟨kept, fun _ => .merged side shape listed structural (Combinator.used_of_take answers taken) merged⟩
  | scalar side shape listed scalars alternative taken _ ih =>
    rw [(Walker.same_of_take taken).2] at ih
    obtain ⟨kept, settles⟩ := ih (.of_property rfl) settled
    have typed := settles (.of_property rfl)
    exact ⟨kept, fun _ => .scalar side shape listed scalars alternative (Combinator.used_of_take answers taken) typed⟩
  | allNil => exact ⟨settled, fun _ => .allNil⟩
  | @allCons side inner rest fields others before middle after here later ihHere ihLater =>
    obtain ⟨kept, settles⟩ := ihHere (behind.leads Task.leads_here) settled
    rw [State.guard_noted, State.cache_noted, here.extends.guard] at ihLater
    obtain ⟨kept', settles'⟩ := ihLater (behind.leads Task.leads_later) kept
    refine ⟨kept', fun clears => ?_⟩
    have first := settles (clears.leads Task.leads_here)
    obtain ⟨field, rfl, _⟩ := first.named
    exact .allCons (first.grow later.extends) (settles' (clears.leads Task.leads_later))
  | mergeNil => exact ⟨settled, fun _ => .mergeNil⟩
  | mergeInline inline _ later ihHere ihLater =>
    obtain ⟨kept, settles⟩ := ihHere (.of_property rfl) settled
    obtain ⟨kept', settles'⟩ := ihLater (.of_property rfl) kept
    have first := settles (.of_property rfl)
    exact ⟨kept', fun _ => .mergeInline inline (first.grow later.extends) (settles' (.of_property rfl))⟩
  | mergeReference reference refers known adds later ih =>
    obtain ⟨kept, settles⟩ := ih (.of_property rfl) settled
    have rest := settles (.of_property rfl)
    exact ⟨kept, fun _ => .mergeReference reference refers (later.extends.known _ _ known) adds rest⟩

theorem Yields.settles {context : Context σ} {answer : Int → Except ChoiceError Int}
    (answers : context.selector.Answers answer)
    {passed : List String} {task : Task} {before after : State σ} {fields : List Field}
    (yields : Yields context task before fields after) (behind : task.Behind context.definitions before.guard)
    (settled : before.cache.Settled context.definitions answer passed) :
    after.cache.Settled context.definitions answer passed ∧
      (task.Acyclic context.definitions → Settles answer after.cache.knows task fields) :=
  yields.settlesOn context.definitions.closed_acyclic answers behind settled

end FieldTree
