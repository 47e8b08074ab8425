import FieldTree.Proofs.Resolution.Definitions

/-! What holds of every cached field. A field is cached under a name because a body came to it, that of the definition
itself or that of the definition it is an alias of. A name that is cached stays cached. -/

namespace FieldTree

variable {σ : Type}

theorem Combinator.exists_used_of_take {context : Context σ} {name : Option String} {combinator : Combinator}
    {branches used : List Members} {before after : State σ}
    (taken : (Walker.take context name combinator branches).Ends before used after) :
    ∃ answer, combinator.used answer branches = some used := by
  unfold Walker.take at taken
  unfold Combinator.used
  split at taken
  next every =>
    refine ⟨fun _ => .ok 0, ?_⟩
    simp only [every, ite_true, (Resolve.ends_pure.mp taken).1]
  next alternative =>
    obtain ⟨branch, _, selected, ends⟩ := Resolve.ends_bind.mp taken
    obtain ⟨rfl, rfl⟩ := Resolve.ends_pure.mp ends
    obtain ⟨index, _, rfl, _⟩ := Walker.ends_select.mp selected
    refine ⟨fun _ => .ok index, ?_⟩
    simp only [alternative, ite_false, Int.natCast_nonneg, ite_true, Int.toNat_natCast, List.get_eq_getElem,
      List.getElem?_eq_getElem index.isLt, Option.map_some]

section
variable {context : Context σ} {before after : State σ}

/-- What holds of the cache goes on to hold if it outlasts the keeping of what comes of a body. The name was not cached
before, and the names under guard lead to all that the body refers to. -/
theorem Yields.preserves {holds : Entries Field → Prop}
    (keeps : ∀ {site target body fields} {before middle : State σ}, site.name = some target →
      context.definitions.given? target = some (.object body) → before.cache.get? target = none →
      Task.Behind context.definitions (target :: before.guard) (.node .definition site (.object body)) →
      Yields context (.node .definition site (.object body)) (before.under (target :: before.guard)) fields middle →
      holds middle.cache → holds (middle.keep target fields).cache)
    {task : Task} {fields : List Field} (yields : Yields context task before fields after)
    (behind : task.Behind context.definitions before.guard) (begun : holds before.cache) : holds after.cache := by
  induction yields with
  | leaf => exact begun
  | group shape _ _ ih => exact ih (behind.leads (Task.leads_group shape)) begun
  | dropped shape _ _ ih => exact ih (behind.leads (Task.leads_group shape)) begun
  | reused => exact begun
  | unexpanded => exact begun
  | @extracted _ _ other _ target _ _ _ _ shape refers unknown _ given inside ih =>
    have entered := behind.enter (Task.mem_references shape refers) given { other with name := some target }
    exact keeps rfl given unknown entered inside (ih entered begun)
  | declared => exact begun
  | empty _ _ taken =>
    rw [(Walker.same_of_take taken).2]
    exact begun
  | @first _ _ name _ _ _ _ _ _ _ _ _ shape listed taken _ ih =>
    obtain ⟨answer, used⟩ := Combinator.exists_used_of_take taken
    obtain ⟨guard, cache⟩ := Walker.same_of_take taken
    rw [guard, cache] at ih
    exact ih (behind.leads (Task.leads_branch shape listed used .definition (.named name) rfl)) begun
  | merged _ _ _ _ taken _ ih =>
    rw [(Walker.same_of_take taken).2] at ih
    exact ih (.of_property rfl) begun
  | scalar _ _ _ _ _ taken _ ih =>
    rw [(Walker.same_of_take taken).2] at ih
    exact ih (.of_property rfl) begun
  | allNil => exact begun
  | allCons here _ ihHere ihLater =>
    rw [State.guard_noted, State.cache_noted, here.extends.guard] at ihLater
    exact ihLater (behind.leads Task.leads_later) (ihHere (behind.leads Task.leads_here) begun)
  | mergeNil => exact begun
  | mergeInline _ _ _ ihHere ihLater => exact ihLater (.of_property rfl) (ihHere (.of_property rfl) begun)
  | mergeReference _ _ _ _ _ ih => exact ih (.of_property rfl) begun

/-- On the side of the properties nothing is cached. -/
theorem Yields.cache_of_property {task : Task} {fields : List Field} (yields : Yields context task before fields after)
    (side : task.side = .property) : after.cache = before.cache := by
  induction yields with
  | leaf => rfl
  | group _ _ _ ih => exact ih side
  | dropped => cases side
  | reused => cases side
  | unexpanded => cases side
  | extracted => cases side
  | declared => rfl
  | empty => cases side
  | first => cases side
  | merged _ _ _ _ taken _ ih => exact (ih rfl).trans (Walker.same_of_take taken).2
  | scalar _ _ _ _ _ taken _ ih => exact (ih rfl).trans (Walker.same_of_take taken).2
  | allNil => rfl
  | @allCons side' inner _ fields _ _ middle _ _ _ ihHere ihLater =>
    obtain rfl : side' = .property := side
    exact (ihLater rfl).trans ((State.cache_noted middle inner fields).trans (ihHere rfl))
  | mergeNil => rfl
  | mergeInline _ _ _ ihHere ihLater => exact (ihLater rfl).trans (ihHere rfl)
  | mergeReference _ _ _ _ _ ih => exact ih rfl

end

/-- It holds of every field that is cached. -/
def Entries.Every (cache : Entries Field) (holds : String → Field → Prop) : Prop :=
  ∀ name field, cache.get? name = some field → holds name field

/-- It holds of all that comes of a body of a definition, if the names under guard lead to all that the body refers
to. -/
def Context.Makes (context : Context σ) (holds : String → Field → Prop) : Prop :=
  ∀ {name body site before fields after}, Source context.definitions [name] name body → site.name = some name →
    Task.Behind context.definitions before.guard (.node .definition site (.object body)) →
      Yields context (.node .definition site (.object body)) before fields after → ∀ field ∈ fields, holds name field

theorem Entries.Every.keep {state : State σ} {holds : String → Field → Prop} {name : String} {fields : List Field}
    (cached : state.cache.Every holds) (made : ∀ field ∈ fields, holds name field) :
    (state.keep name fields).cache.Every holds := by
  intro key field known
  by_cases same : name = key
  · subst same
    cases fields with
    | nil => exact cached name field known
    | cons first rest =>
      rw [State.get?_keep_self] at known
      cases known
      exact made field List.mem_cons_self
  · rw [State.get?_keep state name fields same] at known
    exact cached key field known

section
variable {context : Context σ} {holds : String → Field → Prop} {before after : State σ}

theorem Yields.every (makes : context.Makes holds) {task : Task} {fields : List Field}
    (yields : Yields context task before fields after) (behind : task.Behind context.definitions before.guard)
    (cached : before.cache.Every holds) : after.cache.Every holds := by
  apply @Yields.preserves _ _ _ _ (fun cache => cache.Every holds) _ _ _ yields behind cached
  intro site target body fields before middle named given _ behind inside cached
  exact cached.keep (makes (.own given) named behind inside)

theorem Defines.guard {name : String} {node : Json} (defines : Defines context name node before after) :
    after.guard = before.guard := by
  cases defines with
  | vanished _ walked => exact walked.extends.guard
  | kept _ walked => exact walked.extends.guard
  | stored _ walked => exact walked.extends.guard
  | aliased _ _ _ _ walked => exact (State.guard_keep _ _ _).trans walked.extends.guard
  | @ahead _ target _ _ _ _ _ _ _ _ _ _ walked =>
    rw [State.guard_keep]
    exact (congrArg (List.erase · target) walked.extends.guard).trans (List.erase_cons_head _ _)

theorem Defines.every (makes : context.Makes holds) {name : String} {node : Json}
    (defines : Defines context name node before after) (found : context.definitions.get? name = some node)
    (guard : before.guard = []) (cached : before.cache.Every holds) : after.cache.Every holds := by
  have given : ∀ members, node = .object members → context.definitions.given? name = some (.object members) := by
    rintro members rfl
    simp only [Members.given?, found]
  cases defines with
  | vanished _ walked =>
    have kept := walked.every makes (.unguarded guard) cached
    exact kept
  | kept _ walked =>
    have kept := walked.every makes (.unguarded guard) cached
    exact kept
  | @stored field after _ walked =>
    obtain ⟨members, rfl⟩ := walked.object
    have free : (before.logged (.resolving name)).guard = [] := guard
    have made := makes (.own (given members rfl)) rfl (.unguarded free) walked
    exact @Entries.Every.keep _ _ _ _ [field] (walked.every makes (.unguarded free) cached) made
  | aliased same _ _ _ walked =>
    subst same
    have free : (before.logged (.resolving name)).guard = [] := guard
    have made := makes (.own (given _ rfl)) rfl (.unguarded free) walked
    exact (walked.every makes (.unguarded free) cached).keep made
  | @ahead members target body fields after same reference refers unknown free stands plain walked =>
    subst same
    have outside : Task.Behind context.definitions before.guard (.node .definition (.named (some name)) (.object members)) :=
      .unguarded guard
    have behind := outside.enter (Node.mem_references reference refers) stands (.named (some name))
    have made := makes (.behind List.mem_cons_self (given _ rfl) reference refers stands) rfl behind walked
    have kept := walked.every makes behind cached
    exact Entries.Every.keep kept made

theorem DefinesAll.every (makes : context.Makes holds) {members : Members}
    (defines : DefinesAll context members before after)
    (found : ∀ entry ∈ members, context.definitions.get? entry.1 = some entry.2) (guard : before.guard = [])
    (cached : before.cache.Every holds) : after.guard = [] ∧ after.cache.Every holds := by
  induction defines with
  | nil => exact ⟨guard, cached⟩
  | cons here _ ih =>
    exact ih (fun entry among => found entry (List.mem_cons_of_mem _ among)) (here.guard.trans guard)
      (here.every makes (found _ List.mem_cons_self) guard cached)

/-! A name that is cached stays cached. -/

theorem State.isSome_keep (state : State σ) (name : String) (fields : List Field) {other : String}
    (known : (state.cache.get? other).isSome) : ((state.keep name fields).cache.get? other).isSome := by
  by_cases same : name = other
  · subst same
    cases fields with
    | nil => exact known
    | cons field rest =>
      rw [get?_keep_self]
      rfl
  · rw [get?_keep state name fields same]
    exact known

theorem State.Extends.isSome (grows : before.Extends after) {name : String}
    (known : (before.cache.get? name).isSome) : (after.cache.get? name).isSome := by
  obtain ⟨field, found⟩ := Option.isSome_iff_exists.mp known
  rw [grows.known name field found]
  rfl

theorem Defines.isSome {name : String} {node : Json} (defines : Defines context name node before after) {other : String}
    (known : (before.cache.get? other).isSome) : (after.cache.get? other).isSome := by
  cases defines with
  | vanished _ walked => exact walked.extends.isSome known
  | kept _ walked => exact walked.extends.isSome known
  | @stored field after _ walked => exact State.isSome_keep after name [field] (walked.extends.isSome known)
  | aliased _ _ _ _ walked => exact State.isSome_keep _ name _ (walked.extends.isSome known)
  | ahead _ _ _ _ _ _ _ walked => exact State.isSome_keep _ name _ (walked.extends.isSome known)

/-- A definition of whose node something comes is cached after its turn. -/
theorem Defines.isSome_self {name : String} {node : Json} (defines : Defines context name node before after)
    (plain : node.isPlain = true)
    (something : ∀ {before after}, ¬Yields context (.node .definition (.named (some name)) node) before [] after) :
    (after.cache.get? name).isSome := by
  have refers : ∀ {members}, node = .object members → Node.isReference members = true → False := by
    rintro members rfl reference
    simp [Json.isPlain, reference] at plain
  cases defines with
  | vanished _ walked => exact (something walked).elim
  | kept _ _ found => exact Option.isSome_of_eq_some found
  | @stored field after => exact Option.isSome_of_eq_some (State.get?_keep_self after name field [])
  | aliased same reference => exact (refers same reference).elim
  | ahead same reference => exact (refers same reference).elim

theorem DefinesAll.isSome {members : Members} (defines : DefinesAll context members before after) {name : String}
    (known : (before.cache.get? name).isSome) : (after.cache.get? name).isSome := by
  induction defines with
  | nil => exact known
  | cons here _ ih => exact ih (here.isSome known)

theorem DefinesAll.isSome_of_mem {members : Members} (defines : DefinesAll context members before after)
    {name : String} {node : Json} (declared : (name, node) ∈ members) (plain : node.isPlain = true)
    (something : ∀ {before after}, ¬Yields context (.node .definition (.named (some name)) node) before [] after) :
    (after.cache.get? name).isSome := by
  induction defines with
  | nil => cases declared
  | cons here later ih =>
    rcases List.mem_cons.mp declared with same | further
    · cases same
      exact later.isSome (here.isSome_self plain something)
    · exact ih further

end

/-- Whatever holds of all that comes of the bodies holds of the definitions of the schema. -/
theorem Document.Passes.every {root : Members} {selector : Selector σ} {start : σ} {middle after : State σ}
    {properties : List Field} (passes : Passes root selector start middle properties after)
    (distinct : Entries.Distinct root.declarations) {holds : String → Field → Prop}
    (makes : (context root selector).Makes holds) : after.cache.Every holds := by
  have fresh : (State.fresh start).cache.Every holds := fun _ _ impossible => by cases impossible
  have cached := (passes.definitions.every makes (fun entry among => distinct.get?_of_mem among) rfl fresh).2
  exact passes.properties.every makes (.of_property rfl) cached

end FieldTree
