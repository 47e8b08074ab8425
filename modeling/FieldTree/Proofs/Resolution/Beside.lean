import FieldTree.Proofs.Resolution.Cached

/-! One definition more, to which nothing refers. Whatever is resolved without it is resolved beside it, to the same
fields and with the same choices. -/

namespace FieldTree

variable {σ : Type}

/-- The second context declares one definition more. -/
structure Context.Beside (name : String) (context context' : Context σ) : Prop where
  selector : context'.selector = context.selector
  given : ∀ other, other ≠ name → context'.definitions.given? other = context.definitions.given? other
  unreferenced : ∀ entry ∈ context.definitions, name ∉ entry.2.references

/-- The second state knows as much as the first, and beside that what is known of the one definition. -/
structure State.Beside (name : String) (known : Option Field) (state state' : State σ) : Prop where
  guard : state'.guard = state.guard
  selector : state'.selector = state.selector
  others : ∀ other, other ≠ name → state'.cache.get? other = state.cache.get? other
  own : state'.cache.get? name = known

section
variable {name : String} {known : Option Field} {context context' : Context σ} {before before' after : State σ}

namespace State.Beside

theorem logged (beside : before.Beside name known before') (event : Event) :
    (before.logged event).Beside name known (before'.logged event) :=
  ⟨beside.guard, beside.selector, beside.others, beside.own⟩

theorem noted (beside : before.Beside name known before') (inner : Inner) (fields : List Field) :
    (before.noted inner fields).Beside name known (before'.noted inner fields) := by
  cases fields with
  | nil =>
    unfold State.noted
    cases inner.missing with
    | none => exact beside
    | some event => exact beside.logged event
  | cons => exact beside

theorem under (beside : before.Beside name known before') (guard : Guard) :
    (before.under guard).Beside name known (before'.under guard) :=
  ⟨rfl, beside.selector, beside.others, beside.own⟩

theorem stored (beside : before.Beside name known before') {target : String} (other : target ≠ name) (field : Field) :
    (before.stored target field).Beside name known (before'.stored target field) where
  guard := beside.guard
  selector := beside.selector
  others := by
    intro key different
    simp only [State.stored, Entries.get?_insert, beside.others key different]
  own := by
    simp only [State.stored, Entries.get?_insert, other, ite_false]
    exact beside.own

theorem keep (beside : before.Beside name known before') {target : String} (other : target ≠ name)
    (fields : List Field) : (before.keep target fields).Beside name known (before'.keep target fields) := by
  cases fields with
  | nil => exact beside
  | cons field => exact beside.stored other field

/-- What is then known of the one definition itself. -/
theorem own_stored (beside : before.Beside name known before') (field : Field) (event : Event) :
    before.Beside name (some field) ((before'.logged event).stored name field) where
  guard := beside.guard
  selector := beside.selector
  others := by
    intro other different
    simp only [State.stored, State.logged, Entries.get?_insert, Ne.symm different, ite_false,
      beside.others other different]
  own := by simp only [State.stored, Entries.get?_insert, ite_true]

end State.Beside

theorem Walker.take_beside (contexts : context.Beside name context') (beside : before.Beside name known before')
    {field : Option String} {combinator : Combinator} {branches used : List Members}
    (taken : (take context field combinator branches).Ends before used after) :
    ∃ after', (take context' field combinator branches).Ends before' used after' ∧ after.Beside name known after' := by
  unfold take at taken ⊢
  split at taken
  next every =>
    obtain ⟨rfl, rfl⟩ := Resolve.ends_pure.mp taken
    rw [if_pos every]
    exact ⟨before', Resolve.ends_pure.mpr ⟨rfl, rfl⟩, beside⟩
  next alternative =>
    obtain ⟨branch, _, selected, ends⟩ := Resolve.ends_bind.mp taken
    obtain ⟨rfl, rfl⟩ := Resolve.ends_pure.mp ends
    obtain ⟨index, selector, rfl, picked, rfl⟩ := ends_select.mp selected
    rw [if_neg alternative]
    rw [← contexts.selector, ← beside.selector] at picked
    have again := (@ends_select _ context' field combinator branches _ before' _).mpr
      ⟨index, selector, rfl, picked, rfl⟩
    refine ⟨_, Resolve.ends_bind.mpr ⟨_, _, again, Resolve.ends_pure.mpr ⟨rfl, rfl⟩⟩, ?_⟩
    exact ⟨beside.guard, rfl, beside.others, beside.own⟩

theorem Context.Beside.body (contexts : context.Beside name context') {target : String} {body : Members}
    (given : context.definitions.given? target = some (.object body)) (site : Site) :
    name ∉ (Task.node .definition site (.object body)).references :=
  contexts.unreferenced _ (Members.mem_of_given? given)

theorem Yields.beside (contexts : context.Beside name context') {task : Task} {fields : List Field}
    (yields : Yields context task before fields after) (absent : name ∉ task.references)
    (beside : before.Beside name known before') :
    ∃ after', Yields context' task before' fields after' ∧ after.Beside name known after' := by
  induction yields generalizing before' with
  | leaf shape => exact ⟨before', .leaf shape, beside⟩
  | group shape _ makes ih =>
    obtain ⟨after', walked, beside⟩ := ih (fun among => absent ((Task.leads_group shape).references _ among)) beside
    exact ⟨after', .group shape walked makes, beside⟩
  | dropped shape _ makes ih =>
    obtain ⟨after', walked, beside⟩ := ih (fun among => absent ((Task.leads_group shape).references _ among)) beside
    exact ⟨after', .dropped shape walked makes, beside⟩
  | reused shape refers found =>
    have other := ne_of_mem_of_not_mem (Task.mem_references shape refers) absent
    rw [← beside.others _ other] at found
    exact ⟨_, .reused shape refers found, beside.logged _⟩
  | unexpanded shape refers unknown held =>
    have other := ne_of_mem_of_not_mem (Task.mem_references shape refers) absent
    rw [← beside.others _ other] at unknown
    rw [← beside.guard] at held
    exact ⟨_, .unexpanded shape refers unknown held, beside.logged _⟩
  | @extracted _ _ _ _ target _ fields before middle shape refers unknown free given _ ih =>
    have other := ne_of_mem_of_not_mem (Task.mem_references shape refers) absent
    obtain ⟨middle', walked, inside⟩ := ih (contexts.body given _) (beside.under (target :: before.guard))
    rw [← beside.others _ other] at unknown
    rw [← beside.guard] at free walked
    rw [← contexts.given _ other] at given
    have kept := (inside.keep other fields).under (middle.guard.erase target)
    rw [← inside.guard] at kept
    exact ⟨_, .extracted shape refers unknown free given walked, inside.guard ▸ kept⟩
  | declared side shape refers found takes =>
    have other := ne_of_mem_of_not_mem (Task.mem_references shape refers) absent
    rw [← beside.others _ other] at found
    exact ⟨before', .declared side shape refers found takes, beside⟩
  | empty shape listed taken =>
    obtain ⟨after', taken', beside⟩ := Walker.take_beside contexts beside taken
    exact ⟨after', .empty shape listed taken', beside⟩
  | @first _ _ field _ _ _ _ _ _ _ _ _ shape listed taken _ ih =>
    obtain ⟨answer, used⟩ := Combinator.exists_used_of_take taken
    have leads := Task.leads_branch shape listed used .definition (.named field) rfl
    obtain ⟨middle', taken', beside⟩ := Walker.take_beside contexts beside taken
    obtain ⟨after', walked, beside⟩ := ih (fun among => absent (leads.references _ among)) beside
    exact ⟨after', .first shape listed taken' walked, beside⟩
  | merged side shape listed structural taken _ ih =>
    obtain ⟨answer, used⟩ := Combinator.exists_used_of_take taken
    have leads := Task.leads_merge shape listed used
    obtain ⟨middle', taken', beside⟩ := Walker.take_beside contexts beside taken
    obtain ⟨after', walked, beside⟩ := ih (fun among => absent (leads.references _ among)) beside
    exact ⟨after', .merged side shape listed structural taken' walked, beside⟩
  | @scalar _ _ _ field _ _ _ _ _ _ _ _ side shape listed scalars alternative taken _ ih =>
    obtain ⟨answer, used⟩ := Combinator.exists_used_of_take taken
    have leads := Task.leads_branch shape listed used .typed (.named field) side.symm
    obtain ⟨middle', taken', beside⟩ := Walker.take_beside contexts beside taken
    obtain ⟨after', walked, beside⟩ := ih (fun among => absent (leads.references _ among)) beside
    exact ⟨after', .scalar side shape listed scalars alternative taken' walked, beside⟩
  | allNil => exact ⟨before', .allNil, beside⟩
  | @allCons _ inner _ fields _ _ _ _ _ _ ihHere ihLater =>
    obtain ⟨middle', here, beside⟩ := ihHere (fun among => absent (Task.leads_here.references _ among)) beside
    obtain ⟨after', later, beside⟩ :=
      ihLater (fun among => absent (Task.leads_later.references _ among)) (beside.noted inner fields)
    exact ⟨after', .allCons here later, beside⟩
  | mergeNil => exact ⟨before', .mergeNil, beside⟩
  | mergeInline inline _ _ ihHere ihLater =>
    obtain ⟨middle', here, beside⟩ := ihHere (fun among => absent (Task.leads_inline.references _ among)) beside
    obtain ⟨after', later, beside⟩ := ihLater (fun among => absent (Task.leads_rest.references _ among)) beside
    exact ⟨after', .mergeInline inline here later, beside⟩
  | mergeReference reference refers found adds _ ih =>
    have other := ne_of_mem_of_not_mem (Task.mem_references_merge reference refers) absent
    rw [← beside.others _ other] at found
    obtain ⟨after', later, beside⟩ := ih (fun among => absent (Task.leads_rest.references _ among)) beside
    exact ⟨after', .mergeReference reference refers found adds later, beside⟩

theorem Defines.beside (contexts : context.Beside name context') {entry : String} {node : Json}
    (defines : Defines context entry node before after) (different : entry ≠ name) (absent : name ∉ node.references)
    (beside : before.Beside name known before') :
    ∃ after', Defines context' entry node before' after' ∧ after.Beside name known after' := by
  have begun := beside.logged (.resolving entry)
  cases defines with
  | vanished plain walked =>
    obtain ⟨after', walked', beside⟩ := walked.beside contexts absent begun
    exact ⟨_, .vanished plain walked', beside.logged _⟩
  | kept plain walked found =>
    obtain ⟨after', walked', beside⟩ := walked.beside contexts absent begun
    rw [← beside.others _ different] at found
    exact ⟨_, .kept plain walked' found, beside.logged _⟩
  | stored plain walked new =>
    obtain ⟨after', walked', beside⟩ := walked.beside contexts absent begun
    rw [← beside.others _ different] at new
    exact ⟨_, .stored plain walked' new, beside.stored different _⟩
  | aliased same reference refers found walked =>
    obtain ⟨after', walked', ended⟩ := walked.beside contexts absent begun
    subst same
    have other := ne_of_mem_of_not_mem (Node.mem_references reference refers) absent
    rw [← beside.others _ other] at found
    exact ⟨_, .aliased rfl reference refers found walked', ended.keep different _⟩
  | @ahead members target body fields last same reference refers unknown free given plain walked =>
    subst same
    have other := ne_of_mem_of_not_mem (Node.mem_references reference refers) absent
    obtain ⟨after', walked', ended⟩ :=
      walked.beside contexts (contexts.body given _) (begun.under (target :: before.guard))
    rw [← beside.others _ other] at unknown
    rw [← beside.guard] at free walked'
    rw [← contexts.given _ other] at given
    have kept := (ended.under (last.guard.erase target)).keep different fields
    exact ⟨_, .ahead rfl reference refers unknown free given plain walked', ended.guard ▸ kept⟩

theorem DefinesAll.beside (contexts : context.Beside name context') {members : Members}
    (defines : DefinesAll context members before after) (different : ∀ entry ∈ members, entry.1 ≠ name)
    (absent : ∀ entry ∈ members, name ∉ entry.2.references) (beside : before.Beside name known before') :
    ∃ after', DefinesAll context' members before' after' ∧ after.Beside name known after' := by
  induction defines generalizing before' with
  | nil => exact ⟨before', .nil, beside⟩
  | cons here _ ih =>
    obtain ⟨different_here, different⟩ := List.forall_mem_cons.mp different
    obtain ⟨absent_here, absent⟩ := List.forall_mem_cons.mp absent
    obtain ⟨middle', here', beside⟩ := here.beside contexts different_here absent_here beside
    obtain ⟨after', later', beside⟩ := ih different absent beside
    exact ⟨after', .cons here' later', beside⟩

end
end FieldTree
