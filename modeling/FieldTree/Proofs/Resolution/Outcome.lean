import FieldTree.Resolution.Document

/-! What a resolution comes to from a given state: its result, and the state that it leaves behind. -/

namespace FieldTree

def State.logged {σ : Type} (state : State σ) (event : Event) : State σ :=
  { state with events := event :: state.events }

def State.stored {σ : Type} (state : State σ) (name : String) (field : Field) : State σ :=
  { state with cache := state.cache.insert name field }

def State.under {σ : Type} (state : State σ) (guard : Guard) : State σ := { state with guard }

def Failure.tooDeep : Failure := .document (.semantic .tooDeep)

theorem exists_of_toBool {ε α : Type} {result : Except ε α} (ok : result.toBool = true) :
    ∃ value, result = .ok value := by
  cases result with
  | ok value => exact ⟨value, rfl⟩
  | error error => cases ok

namespace Resolve

variable {σ α β : Type}

def outcome (resolve : Resolve σ α) (state : State σ) : Except Failure α × State σ := resolve.run.run state

theorem outcome_pure (value : α) (state : State σ) :
    (pure value : Resolve σ α).outcome state = (.ok value, state) := rfl

theorem outcome_bind (first : Resolve σ α) (rest : α → Resolve σ β) (state : State σ) :
    (first >>= rest).outcome state =
      match first.outcome state with
      | (.ok value, after) => (rest value).outcome after
      | (.error failure, after) => (.error failure, after) := by
  cases ended : first.outcome state with
  | mk result after =>
    have same : first.run.run state = (result, after) := ended
    simp only [outcome, ExceptT.run_bind, StateT.run_bind, same]
    cases result <;> rfl

theorem outcome_bind_of_error {first : Resolve σ α} {rest : α → Resolve σ β} {before : State σ}
    {failure : Failure} (fails : (first.outcome before).1 = .error failure) :
    ((first >>= rest).outcome before).1 = .error failure := by
  rw [outcome_bind]
  cases ended : first.outcome before with
  | mk result after =>
    rw [ended] at fails
    cases fails
    rfl

theorem outcome_log (event : Event) (state : State σ) : (log event).outcome state = (.ok (), state.logged event) := rfl

theorem outcome_cached? (name : String) (state : State σ) :
    (cached? name).outcome state = (.ok (state.cache.get? name), state) := rfl

theorem outcome_store (name : String) (field : Field) (state : State σ) :
    (store name field).outcome state = (.ok (), state.stored name field) := rfl

theorem outcome_fail (error : SemanticError) (state : State σ) :
    (fail error : Resolve σ α).outcome state = (.error (.document (.semantic error)), state) := rfl

theorem outcome_guarded (name : String) (body : Bool → Resolve σ α) (state : State σ) :
    (guarded name body).outcome state =
      (((body (state.guard.enter name).1).outcome (state.under (state.guard.enter name).2)).1,
        let after := ((body (state.guard.enter name).1).outcome (state.under (state.guard.enter name).2)).2
        after.under (after.guard.leave name (state.guard.enter name).1)) := rfl

/-- A choice changes nothing but the selector. -/
theorem outcome_choose_snd (context : Context σ) (count : Nat) (state : State σ) :
    ((choose context count).outcome state).2 =
      { state with selector := (context.selector.pick count state.selector).2 } := by
  simp only [outcome, choose, ExceptT.run_mk, StateT.run]
  split <;> simp only [*]

/-- A choice fails for the selector only. -/
theorem choice_of_outcome_choose {context : Context σ} {count : Nat} {state : State σ} {failure : Failure}
    (fails : ((choose context count).outcome state).1 = .error failure) : ∃ error, failure = .choice error := by
  simp only [outcome, choose, ExceptT.run_mk, StateT.run] at fails
  split at fails
  · cases fails
  next error _ _ =>
    cases fails
    exact ⟨error, rfl⟩

/-- The resolution gives the value, and leads from the one state to the other. -/
def Ends (resolve : Resolve σ α) (before : State σ) (value : α) (after : State σ) : Prop :=
  resolve.outcome before = (.ok value, after)

variable {before after : State σ}

theorem ends_pure {value given : α} : (pure value : Resolve σ α).Ends before given after ↔ given = value ∧
      before = after := by
  simp only [Ends, outcome_pure, Prod.mk.injEq, Except.ok.injEq, @eq_comm _ value]

theorem ends_bind {first : Resolve σ α} {rest : α → Resolve σ β} {given : β} :
    (first >>= rest).Ends before given after ↔
      ∃ value middle, first.Ends before value middle ∧ (rest value).Ends middle given after := by
  simp only [Ends, outcome_bind]
  cases first.outcome before with
  | mk result middle =>
    cases result with
    | ok value =>
      constructor
      · intro ends
        exact ⟨value, middle, rfl, ends⟩
      · rintro ⟨_, _, same, ends⟩
        cases same
        exact ends
    | error failure => simp

theorem ends_fail {error : SemanticError} {given : α} : (fail error : Resolve σ α).Ends before given after ↔ False := by
  simp [Ends, outcome_fail]

theorem ends_orFail {result : Except SemanticError α} {given : α} :
    (Walker.orFail result : Resolve σ α).Ends before given after ↔ result = .ok given ∧ before = after := by
  cases result with
  | ok value => simp only [Walker.orFail, ends_pure, Except.ok.injEq, @eq_comm _ value]
  | error error => simp [Walker.orFail, ends_fail]

theorem ends_ofField {result : Except FieldError α} {given : α} :
    (ofField result : Resolve σ α).Ends before given after ↔ result = .ok given ∧ before = after := by
  cases result with
  | ok value => simp only [ofField, ends_pure, Except.ok.injEq, @eq_comm _ value]
  | error error =>
    constructor
    · intro ends
      cases ends
    · rintro ⟨impossible, _⟩
      cases impossible

theorem ends_log {event : Event} {given : Unit} :
    (log event).Ends before given after ↔ after = before.logged event := by
  simp only [Ends, outcome_log, Prod.mk.injEq, true_and, eq_comm]

theorem ends_cached? {name : String} {given : Option Field} :
    (cached? name).Ends before given after ↔ given = before.cache.get? name ∧ before = after := by
  simp only [Ends, outcome_cached?, Prod.mk.injEq, Except.ok.injEq, @eq_comm _ given]

theorem ends_store {name : String} {field : Field} {given : Unit} :
    (store name field).Ends before given after ↔ after = before.stored name field := by
  simp only [Ends, outcome_store, Prod.mk.injEq, true_and, eq_comm]

/-- A name under guard is not let in, and the guard stays as it is. -/
theorem ends_guarded_of_mem {name : String} {body : Bool → Resolve σ α} {given : α} (held : name ∈ before.guard) :
    (guarded name body).Ends before given after ↔ (body false).Ends before given after := by
  have contains : before.guard.contains name = true := by simpa using held
  simp only [Ends, outcome_guarded, Guard.enter, contains, ite_true, Guard.leave, Bool.false_eq_true, ite_false]
  exact Iff.rfl

theorem ends_guarded_of_not_mem {name : String} {body : Bool → Resolve σ α} {given : α} (free : name ∉ before.guard) :
    (guarded name body).Ends before given after ↔
      ∃ middle, (body true).Ends (before.under (name :: before.guard)) given middle ∧
        after = middle.under (middle.guard.erase name) := by
  have contains : before.guard.contains name = false := by simpa using free
  simp only [Ends, outcome_guarded, Guard.enter, contains, Guard.leave, Bool.false_eq_true, ite_false, ite_true]
  cases (body true).outcome (before.under (name :: before.guard)) with
  | mk result middle =>
    constructor
    · intro same
      cases same
      exact ⟨middle, rfl, rfl⟩
    · rintro ⟨_, same, rfl⟩
      cases same
      rfl

theorem ends_choose {context : Context σ} {count : Nat} {index : Fin count} :
    (choose context count).Ends before index after ↔
      context.selector.pick count before.selector = (.ok (index : Int), after.selector) ∧
        after = { before with selector := after.selector } := by
  simp only [Ends, outcome, choose, ExceptT.run_mk, StateT.run]
  split
  next chosen next picked =>
    have range := Selector.pick_range picked
    have whole : ((chosen.toNat : Nat) : Int) = chosen := by omega
    constructor
    · intro ends
      cases ends
      exact ⟨by simpa only [whole] using picked, rfl⟩
    · rintro ⟨again, same⟩
      rw [picked] at again
      obtain ⟨same_index, same_next⟩ := Prod.mk.inj again
      have same_branch : chosen.toNat = index := Int.ofNat_inj.mp (whole.trans (Except.ok.inj same_index))
      refine Prod.ext (congrArg Except.ok (Fin.ext same_branch)) ?_
      rw [same, ← same_next]
  next failed =>
    constructor
    · intro ends
      cases ends
    · rintro ⟨picked, _⟩
      rw [failed] at picked
      cases picked

end Resolve

namespace Walker
open Resolve

variable {σ : Type}

/-- The choice of a branch, if there is any. -/
def chosen (context : Context σ) (name : Option String) (combinator : Combinator) (branches : List Members) :
    Resolve σ Members := do
  let index ← choose context branches.length
  log (.selected combinator index branches.length name)
  return branches.get index

theorem select_eq (context : Context σ) (name : Option String) (combinator : Combinator) (branches : List Members) :
    select context name combinator branches =
      if branches.isEmpty then fail (.emptyCombination combinator name) else chosen context name combinator branches := by
  unfold select chosen
  dsimp only
  split <;> rfl

theorem ends_select {context : Context σ} {name : Option String} {combinator : Combinator} {branches : List Members}
    {branch : Members} {before after : State σ} :
    (select context name combinator branches).Ends before branch after ↔
      ∃ (index : Fin branches.length) (selector : σ), branch = branches.get index ∧
        context.selector.pick branches.length before.selector = (.ok (index : Int), selector) ∧
        after = State.logged { before with selector } (.selected combinator index branches.length name) := by
  rw [select_eq]
  constructor
  · intro ends
    split at ends
    · exact (ends_fail.mp ends).elim
    · obtain ⟨index, middle, picked, ends⟩ := ends_bind.mp ends
      obtain ⟨_, _, logged, ends⟩ := ends_bind.mp ends
      obtain ⟨rfl, rfl⟩ := ends_pure.mp ends
      obtain ⟨picked, same⟩ := ends_choose.mp picked
      refine ⟨index, middle.selector, rfl, picked, ?_⟩
      rw [ends_log.mp logged, ← same]
  · rintro ⟨index, selector, rfl, picked, rfl⟩
    have some_branch : branches.isEmpty = false := by
      cases branches with
      | nil => exact index.elim0
      | cons => rfl
    simp only [some_branch, Bool.false_eq_true, ite_false]
    refine ends_bind.mpr ⟨index, { before with selector }, ends_choose.mpr ⟨picked, rfl⟩, ?_⟩
    exact ends_bind.mpr ⟨(), _, ends_log.mpr rfl, ends_pure.mpr ⟨rfl, rfl⟩⟩

end Walker
end FieldTree
