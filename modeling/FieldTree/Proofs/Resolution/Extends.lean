import FieldTree.Proofs.Resolution.Yields

/-! A walk leaves the guard as it found it, keeps what is known, and adds nothing under a name that is under guard. -/

namespace FieldTree

variable {σ : Type}

structure State.Extends (before after : State σ) : Prop where
  guard : after.guard = before.guard
  held : ∀ name ∈ before.guard, after.cache.get? name = before.cache.get? name
  known : ∀ name field, before.cache.get? name = some field → after.cache.get? name = some field

theorem State.guard_keep (state : State σ) (name : String) (fields : List Field) :
    (state.keep name fields).guard = state.guard := by
  cases fields <;> rfl

theorem State.get?_keep_self (state : State σ) (name : String) (field : Field) (rest : List Field) :
    (state.keep name (field :: rest)).cache.get? name = some field := by
  simp [State.keep, State.stored]

theorem State.guard_noted (state : State σ) (inner : Inner) (fields : List Field) :
    (state.noted inner fields).guard = state.guard := by
  cases fields with
  | nil =>
    unfold State.noted
    cases inner.missing <;> rfl
  | cons => rfl

theorem State.cache_noted (state : State σ) (inner : Inner) (fields : List Field) :
    (state.noted inner fields).cache = state.cache := by
  cases fields with
  | nil =>
    unfold State.noted
    cases inner.missing <;> rfl
  | cons => rfl

namespace State.Extends

variable {before middle after : State σ}

theorem of_same (guard : after.guard = before.guard) (cache : after.cache = before.cache) : before.Extends after :=
  ⟨guard, fun name _ => by rw [cache], fun name field known => by rw [cache, known]⟩

theorem refl (state : State σ) : state.Extends state := of_same rfl rfl

theorem trans (first : before.Extends middle) (second : middle.Extends after) : before.Extends after where
  guard := second.guard.trans first.guard
  held := fun name among => (second.held name (first.guard ▸ among)).trans (first.held name among)
  known := fun name field known => second.known name field (first.known name field known)

theorem logged (state : State σ) (event : Event) : state.Extends (state.logged event) := of_same rfl rfl

theorem noted (state : State σ) (inner : Inner) (fields : List Field) : state.Extends (state.noted inner fields) :=
  of_same (state.guard_noted inner fields) (state.cache_noted inner fields)

theorem stored (state : State σ) {name : String} (field : Field) (unknown : state.cache.get? name = none)
    (free : name ∉ state.guard) : state.Extends (state.stored name field) where
  guard := rfl
  held := fun other among => by
    have different : name ≠ other := fun same => free (same ▸ among)
    simp only [State.stored, Entries.get?_insert, different, ite_false]
  known := fun other found known => by
    have different : name ≠ other := by
      rintro rfl
      rw [unknown] at known
      cases known
    simpa only [State.stored, Entries.get?_insert, different, ite_false] using known

end State.Extends

theorem State.get?_keep (state : State σ) (name : String) (fields : List Field) {other : String}
    (different : name ≠ other) :
    (state.keep name fields).cache.get? other = state.cache.get? other := by
  cases fields with
  | nil => rfl
  | cons field rest => simp [State.keep, State.stored, different]

/-- What comes of a body is new: its name was under guard meanwhile. -/
theorem State.Extends.extracted {before middle : State σ} {target : String} (fields : List Field)
    (unknown : before.cache.get? target = none) (free : target ∉ before.guard)
    (inside : (before.under (target :: before.guard)).Extends middle) :
    before.Extends ((middle.keep target fields).under (middle.guard.erase target)) where
  guard := by
    change middle.guard.erase target = before.guard
    rw [inside.guard]
    exact List.erase_cons_head target before.guard
  held := fun name among => by
    have different : target ≠ name := fun same => free (same ▸ among)
    change (middle.keep target fields).cache.get? name = _
    rw [State.get?_keep middle target fields different]
    exact inside.held name (List.mem_cons_of_mem _ among)
  known := fun name field known => by
    have different : target ≠ name := by
      rintro rfl
      rw [unknown] at known
      cases known
    change (middle.keep target fields).cache.get? name = _
    rw [State.get?_keep middle target fields different]
    exact inside.known name field known

namespace Walker
open Resolve

variable {context : Context σ} {name : Option String} {combinator : Combinator} {branches used : List Members}
  {before after : State σ}

theorem same_of_take (taken : (take context name combinator branches).Ends before used after) :
    after.guard = before.guard ∧ after.cache = before.cache := by
  unfold take at taken
  split at taken
  · obtain ⟨_, rfl⟩ := ends_pure.mp taken
    exact ⟨rfl, rfl⟩
  · obtain ⟨branch, _, selected, ends⟩ := ends_bind.mp taken
    obtain ⟨_, rfl⟩ := ends_pure.mp ends
    obtain ⟨index, selector, _, _, rfl⟩ := ends_select.mp selected
    exact ⟨rfl, rfl⟩

theorem extends_of_take (taken : (take context name combinator branches).Ends before used after) :
    before.Extends after :=
  .of_same (same_of_take taken).1 (same_of_take taken).2

end Walker

theorem Yields.extends {context : Context σ} {task : Task} {before after : State σ} {fields : List Field}
    (yields : Yields context task before fields after) : before.Extends after := by
  induction yields with
  | leaf => exact .refl _
  | group _ _ _ ih => exact ih
  | dropped _ _ _ ih => exact ih
  | reused => exact .logged _ _
  | unexpanded => exact .logged _ _
  | extracted _ _ unknown free _ _ ih => exact .extracted _ unknown free ih
  | declared => exact .refl _
  | empty _ _ taken => exact Walker.extends_of_take taken
  | first _ _ taken _ ih => exact (Walker.extends_of_take taken).trans ih
  | merged _ _ _ _ taken _ ih => exact (Walker.extends_of_take taken).trans ih
  | scalar _ _ _ _ _ taken _ ih => exact (Walker.extends_of_take taken).trans ih
  | allNil => exact .refl _
  | allCons _ _ ihHere ihLater => exact ihHere.trans ((State.Extends.noted _ _ _).trans ihLater)
  | mergeNil => exact .refl _
  | mergeInline _ _ _ ihHere ihLater => exact ihHere.trans ihLater
  | mergeReference _ _ _ _ _ ih => exact ih

end FieldTree
