import FieldTree.Proofs.Resolution.Cached
import FieldTree.Proofs.Resolution.Inversion
import FieldTree.Proofs.Resolution.Visits

/-! What is cached stays as it is. A definition that refers to another can be cached before the pass over the definitions
comes to it. Then it has the field of the other one, so that what is stored on its turn is what is there already. -/

namespace FieldTree

variable {σ : Type}

/-- Whatever is in the first is in the other, as it is. -/
def Entries.Persists (first last : Entries Field) : Prop :=
  ∀ name field, first.get? name = some field → last.get? name = some field

/-- An alias that is cached before its turn has the field of its target. -/
def Entries.Mirrors (cache : Entries Field) (definitions : Members) (passed : List String) : Prop :=
  ∀ ⦃name members target field⦄, name ∉ passed → definitions.given? name = some (.object members) →
    Node.isReference members = true → Node.target members = .ok target → cache.get? name = some field →
      ∃ known, cache.get? target = some known ∧ field = known.rename (some name)

theorem Entries.Persists.refl (cache : Entries Field) : cache.Persists cache := fun _ _ known => known

theorem Entries.Persists.trans {first middle last : Entries Field} (before : first.Persists middle)
    (after : middle.Persists last) : first.Persists last :=
  fun name field known => after name field (before name field known)

theorem State.persists_keep {state : State σ} {name : String} {fields : List Field}
    (agrees : ∀ old, state.cache.get? name = some old → fields = [old]) :
    state.cache.Persists (state.keep name fields).cache := by
  intro other field known
  by_cases same : name = other
  · subst same
    rw [agrees field known, get?_keep_self]
  · rw [get?_keep state name fields same]
    exact known

theorem State.persists_keep_new {state : State σ} {name : String} (fields : List Field)
    (unknown : state.cache.get? name = none) : state.cache.Persists (state.keep name fields).cache := by
  apply persists_keep
  intro old known
  rw [unknown] at known
  cases known

namespace Entries.Mirrors

variable {definitions : Members} {passed passed' : List String}

theorem later {cache : Entries Field} (mirrors : cache.Mirrors definitions passed)
    (more : ∀ name ∈ passed, name ∈ passed') : cache.Mirrors definitions passed' :=
  fun _ _ _ _ new given reference refers known => mirrors (fun among => new (more _ among)) given reference refers known

/-- What is kept does no harm under a name whose turn has come, or if it is the field of the target. -/
theorem keep {state : State σ} {name : String} {fields : List Field} (mirrors : state.cache.Mirrors definitions passed)
    (persists : state.cache.Persists (state.keep name fields).cache)
    (own : name ∈ passed ∨ ∀ field ∈ fields, ∀ members target, definitions.given? name = some (.object members) →
      Node.isReference members = true → Node.target members = .ok target →
        ∃ known, state.cache.get? target = some known ∧ field = known.rename (some name)) :
    (state.keep name fields).cache.Mirrors definitions passed := by
  intro other members target field new given reference refers known
  have old : state.cache.get? other = some field →
      ∃ stored, (state.keep name fields).cache.get? target = some stored ∧ field = stored.rename (some other) := by
    intro known
    obtain ⟨stored, there, same⟩ := mirrors new given reference refers known
    exact ⟨stored, persists target stored there, same⟩
  by_cases same : name = other
  · subst same
    cases fields with
    | nil => exact old known
    | cons first rest =>
      rw [State.get?_keep_self] at known
      cases known
      obtain ⟨stored, there, same⟩ := (own.resolve_left new) field List.mem_cons_self members target given reference refers
      exact ⟨stored, persists target stored there, same⟩
  · rw [State.get?_keep state name fields same] at known
    exact old known

end Entries.Mirrors

section
variable {context : Context σ} {passed : List String} {before after : State σ}

theorem Yields.mirrors (unmixed : context.definitions.Unmixed) {task : Task} {fields : List Field}
    (yields : Yields context task before fields after) (behind : task.Behind context.definitions before.guard)
    (mirrors : before.cache.Mirrors context.definitions passed) : after.cache.Mirrors context.definitions passed := by
  apply @Yields.preserves _ _ _ _ (fun cache => cache.Mirrors context.definitions passed) _ _ _ yields behind mirrors
  intro site target body fields before middle named given unknown _ inside kept
  have new : middle.cache.get? target = none := (inside.extends.held target List.mem_cons_self).trans unknown
  refine kept.keep (State.persists_keep_new fields new) (.inr ?_)
  intro field among members goal again reference refers
  cases given.symm.trans again
  -- The body is a reference itself: what comes of it was taken over from its own target.
  have shape := Shape.ofNode_alias reference (unmixed.untyped given reference) site
  obtain ⟨_, refers', followed⟩ := inside.walked shape
  cases refers.symm.trans refers'
  rcases followed with ⟨known, there, rfl, rfl⟩ | ⟨_, _, rfl, _⟩ | ⟨_, _, _, made, last, _, deeper, rfl, rfl⟩
  · rw [List.mem_singleton.mp among, named]
    exact ⟨known, there, rfl⟩
  · cases among
  · obtain ⟨child, rfl⟩ := deeper.optional
    obtain ⟨made, inside, rfl⟩ := List.mem_map.mp among
    obtain rfl := Option.mem_toList.mp inside
    rw [named]
    exact ⟨made, State.get?_keep_self last goal made [], rfl⟩

theorem Node.isReference_of_target {node : Members} {name : String} (refers : target node = .ok name) :
    isReference node = true := by
  unfold isReference Members.gives
  cases given : node.given? "$ref" with
  | some value => rfl
  | none =>
    simp only [target, given, Json.textOf, Option.map_none, Option.getD_none] at refers
    cases refers

theorem Begins.unique {name : String} {node : Json} {task task' : Task} {begun begun' : State σ}
    (first : Begins context name node before task begun) (second : Begins context name node before task' begun') :
    task = task' ∧ begun = begun' := by
  have plain_alias : ∀ {members target}, node.isPlain = true → node = .object members →
      Node.target members = .ok target → False := by
    rintro members target plain rfl refers
    simp [Json.isPlain, Node.isReference_of_target refers] at plain
  cases first with
  | plain plain =>
    cases second with
    | plain => exact ⟨rfl, rfl⟩
    | aliased => exact ⟨rfl, rfl⟩
    | ahead same refers => exact (plain_alias plain same refers).elim
  | aliased same refers found =>
    cases second with
    | plain => exact ⟨rfl, rfl⟩
    | aliased => exact ⟨rfl, rfl⟩
    | ahead same' refers' unknown =>
      cases same.symm.trans same'
      cases refers.symm.trans refers'
      cases found.symm.trans unknown
  | ahead same refers unknown given =>
    cases second with
    | plain plain => exact (plain_alias plain same refers).elim
    | aliased same' refers' found =>
      cases same.symm.trans same'
      cases refers.symm.trans refers'
      cases found.symm.trans unknown
    | ahead same' refers' _ given' =>
      cases same.symm.trans same'
      cases refers.symm.trans refers'
      cases given.symm.trans given'
      exact ⟨rfl, rfl⟩

/-- A turn is the walk that it begins, and what is stored thereafter changes nothing that is cached. -/
theorem Defines.turn (unmixed : context.definitions.Unmixed) {name : String} {node : Json}
    (defines : Defines context name node before after) (found : context.definitions.get? name = some node)
    (new : name ∉ passed) (guard : before.guard = []) (mirrors : before.cache.Mirrors context.definitions passed) :
    after.cache.Mirrors context.definitions (name :: passed) ∧
      ∃ task begun fields last, Begins context name node before task begun ∧ Yields context task begun fields last ∧
        last.cache.Persists after.cache := by
  have given : ∀ members, node = .object members → context.definitions.given? name = some (.object members) := by
    rintro members rfl
    simp only [Members.given?, found]
  have more : ∀ other ∈ passed, other ∈ name :: passed := fun other among => List.mem_cons_of_mem _ among
  have outside : ∀ {manner site node}, Task.Behind context.definitions before.guard (.node manner site node) :=
    .unguarded guard
  cases defines with
  | vanished plain walked =>
    have kept := walked.mirrors unmixed outside mirrors
    exact ⟨kept.later more, _, _, _, _, .plain plain, walked, .refl _⟩
  | kept plain walked =>
    have kept := walked.mirrors unmixed outside mirrors
    exact ⟨kept.later more, _, _, _, _, .plain plain, walked, .refl _⟩
  | @stored field after plain walked unknown =>
    have kept := (walked.mirrors unmixed outside mirrors).later more
    have persists := State.persists_keep_new [field] unknown
    exact ⟨kept.keep persists (.inl List.mem_cons_self), _, _, _, _, .plain plain, walked, persists⟩
  | @aliased members target known fields after same reference refers cached walked =>
    subst same
    have shape := Shape.ofNode_alias reference (unmixed.untyped (given members rfl) reference) (.named (some name))
    have there : (before.logged (.resolving name)).cache.get? target = some known := cached
    have kept := walked.mirrors unmixed outside mirrors
    obtain ⟨rfl, rfl⟩ := (Yields.reused shape refers there).unique walked
    have persists := @State.persists_keep _ ((before.logged (.resolving name)).logged (.reused target (some name)))
      name [known.rename (some name)] fun old stored => by
        obtain ⟨field, there', rfl⟩ := mirrors new (given members rfl) reference refers stored
        cases cached.symm.trans there'
        rfl
    exact ⟨(kept.later more).keep persists (.inl List.mem_cons_self), _, _, _, _, .aliased rfl refers cached, walked,
      persists⟩
  | @ahead members target body fields after same reference refers unknown free stands plain walked =>
    subst same
    have behind := (@outside .definition (.named (some name)) (.object members)).enter
      (Node.mem_references reference refers) stands (.named (some name))
    have kept := walked.mirrors unmixed behind mirrors
    have absent : after.cache.get? target = none := (walked.extends.held target List.mem_cons_self).trans unknown
    have persists := @State.persists_keep _ (after.under (after.guard.erase target)) name fields fun old stored => by
      obtain ⟨field, there, _⟩ := kept new (given members rfl) reference refers stored
      cases absent.symm.trans there
    have mirrors' : (after.under (after.guard.erase target)).cache.Mirrors context.definitions (name :: passed) :=
      kept.later more
    exact ⟨mirrors'.keep persists (.inl List.mem_cons_self), _, _, _, _, .ahead rfl refers unknown stands, walked,
      persists⟩

theorem DefinesAll.mirrors (unmixed : context.definitions.Unmixed) {members : Members}
    (defines : DefinesAll context members before after)
    (found : ∀ entry ∈ members, context.definitions.get? entry.1 = some entry.2) (distinct : members.Distinct)
    (new : ∀ name ∈ members.map Prod.fst, name ∉ passed) (guard : before.guard = [])
    (mirrors : before.cache.Mirrors context.definitions passed) :
    after.guard = [] ∧ after.cache.Mirrors context.definitions (members.map Prod.fst ++ passed) := by
  induction defines generalizing passed with
  | nil => exact ⟨guard, mirrors⟩
  | @cons name node rest before middle after here _ ih =>
    obtain ⟨different, distinct⟩ := List.nodup_cons.mp distinct
    obtain ⟨kept, _⟩ :=
      here.turn unmixed (found _ List.mem_cons_self) (new name List.mem_cons_self) guard mirrors
    have later : ∀ other ∈ rest.map Prod.fst, other ∉ name :: passed := by
      intro other among impossible
      rcases List.mem_cons.mp impossible with rfl | earlier
      · exact different among
      · exact new other (List.mem_cons_of_mem _ among) earlier
    obtain ⟨free, mirrors⟩ :=
      ih (fun entry among => found entry (List.mem_cons_of_mem _ among)) distinct later (here.guard.trans guard) kept
    refine ⟨free, mirrors.later fun other among => ?_⟩
    simp only [List.map_cons, List.cons_append, List.mem_append, List.mem_cons] at among ⊢
    rcases among with further | here | earlier
    · exact .inr (.inl further)
    · exact .inl here
    · exact .inr (.inr earlier)

end
end FieldTree
