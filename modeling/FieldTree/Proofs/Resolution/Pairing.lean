import FieldTree.Proofs.Resolution.Node
import FieldTree.Proofs.Resolution.Outcome

/-! Two resolutions side by side. A pairing says what the states of the two have in common while they are at the
same place; the rules below carry it through every function of the walk, also where the walk fails. The two
walkers need to agree on the nodes that fit only, which is how a bound on the nesting or a restriction of the
documents enters. Where the first ends for a reason that is excused, nothing is said of the second. -/

namespace FieldTree

namespace Resolve

variable {σ α : Type}

/-- The value may come of the resolution, from some state. -/
def Gives (resolve : Resolve σ α) (value : α) : Prop := ∃ before after, resolve.Ends before value after

theorem Gives.of_orFail {result : Except SemanticError α} {given : α}
    (gives : (Walker.orFail result : Resolve σ α).Gives given) : result = .ok given := by
  obtain ⟨before, after, ends⟩ := gives
  exact (ends_orFail.mp ends).1

end Resolve

/-- What two resolutions have in common while the names under guard are the same for both, and the failures
in which they may end. -/
structure Pairing (σ τ : Type) where
  states : Guard → State σ → State τ → Prop
  failures : Failure → Prop
  /-- The failures with which the first may end by itself. -/
  excused : Failure → Prop := fun _ => False
  guards : ∀ {guard first second}, states guard first second → first.guard = guard ∧ second.guard = guard
  caches : ∀ {guard first second}, states guard first second → first.cache = second.cache
  logged : ∀ {guard first second} event, states guard first second →
    states guard (first.logged event) (second.logged event)
  stored : ∀ {guard first second name} field, states guard first second → name ∉ guard →
    states guard (first.stored name field) (second.stored name field)
  entered : ∀ {guard first second name}, states guard first second → name ∉ guard →
    states (name :: guard) (first.under (name :: guard)) (second.under (name :: guard))
  left : ∀ {guard before before' after after' name}, states guard before before' → name ∉ guard →
    states (name :: guard) after after' → states guard (after.under guard) (after'.under guard)
  errors : ∀ error : SemanticError, error.ofNode = true → failures (.document (.semantic error))
  choices : ∀ error, failures (.choice error)
  fields : ∀ error, failures (.field error)

namespace Pairing
open Resolve

variable {σ τ α β : Type} (pairing : Pairing σ τ)

/-- Started from states that are paired, both end alike, in states that are paired, unless the first is excused. -/
def Runs (guard : Guard) (first : Resolve σ α) (second : Resolve τ α) : Prop :=
  ∀ state state', pairing.states guard state state' →
    (∃ failure, (first.outcome state).1 = .error failure ∧ pairing.excused failure) ∨
    ((first.outcome state).1 = (second.outcome state').1 ∧
      pairing.states guard (first.outcome state).2 (second.outcome state').2 ∧
      ∀ failure, (first.outcome state).1 = .error failure → pairing.failures failure)

variable {pairing} {guard : Guard}

theorem Runs.alike {first : Resolve σ α} {second : Resolve τ α} {state : State σ} {state' : State τ}
    (runs : pairing.Runs guard first second) (never : ∀ failure, ¬pairing.excused failure)
    (paired : pairing.states guard state state') :
    (first.outcome state).1 = (second.outcome state').1 ∧
      pairing.states guard (first.outcome state).2 (second.outcome state').2 ∧
      ∀ failure, (first.outcome state).1 = .error failure → pairing.failures failure := by
  rcases runs state state' paired with ⟨failure, _, excused⟩ | alike
  · exact absurd excused (never failure)
  · exact alike

theorem Runs.pure (value : α) : pairing.Runs guard (Pure.pure value) (Pure.pure value) := by
  intro state state' paired
  exact .inr ⟨rfl, paired, by intro failure impossible; cases impossible⟩

theorem Runs.bind_of {first : Resolve σ α} {second : Resolve τ α} {rest : α → Resolve σ β} {rest' : α → Resolve τ β}
    (runs : pairing.Runs guard first second)
    (later : ∀ value, first.Gives value → pairing.Runs guard (rest value) (rest' value)) :
    pairing.Runs guard (first >>= rest) (second >>= rest') := by
  intro state state' paired
  simp only [outcome_bind]
  rcases runs state state' paired with ⟨failure, fails, excused⟩ | ⟨same, after, fails⟩
  · rcases ended : first.outcome state with ⟨result, middle⟩
    rw [ended] at fails
    cases fails
    exact .inl ⟨failure, rfl, excused⟩
  · cases ended : first.outcome state with
    | mk result middle =>
      cases ended' : second.outcome state' with
      | mk result' middle' =>
        simp only [ended, ended'] at same after fails
        subst same
        cases result with
        | ok value => exact later value ⟨state, middle, ended⟩ middle middle' after
        | error failure => exact .inr ⟨rfl, after, fun other impossible => fails other (by simpa using impossible)⟩

theorem Runs.bind {first : Resolve σ α} {second : Resolve τ α} {rest : α → Resolve σ β} {rest' : α → Resolve τ β}
    (runs : pairing.Runs guard first second) (later : ∀ value, pairing.Runs guard (rest value) (rest' value)) :
    pairing.Runs guard (first >>= rest) (second >>= rest') :=
  runs.bind_of fun value _ => later value

theorem Runs.excuse {failure : Failure} (excused : pairing.excused failure) (second : Resolve τ α) :
    pairing.Runs guard (throw failure) second :=
  fun _ _ _ => .inl ⟨failure, rfl, excused⟩

theorem Runs.throw (failure : Failure) (allowed : pairing.failures failure) :
    pairing.Runs guard (throw failure : Resolve σ α) (throw failure) := by
  intro state state' paired
  refine .inr ⟨rfl, paired, ?_⟩
  intro other same
  cases same
  exact allowed

theorem Runs.fail (error : SemanticError) (own : error.ofNode = true) :
    pairing.Runs guard (Resolve.fail error : Resolve σ α) (Resolve.fail error) :=
  Runs.throw _ (pairing.errors error own)

theorem Runs.orFail {result : Except SemanticError α} (told : Node.Told result) :
    pairing.Runs guard (Walker.orFail result : Resolve σ α) (Walker.orFail result) := by
  cases result with
  | ok value => exact Runs.pure value
  | error error => exact Runs.fail error (told error rfl)

theorem Runs.ofField (result : Except FieldError α) :
    pairing.Runs guard (Resolve.ofField result : Resolve σ α) (Resolve.ofField result) := by
  cases result with
  | ok value => exact Runs.pure value
  | error error => exact Runs.throw _ (pairing.fields error)

theorem Runs.log (event : Event) : pairing.Runs guard (Resolve.log event) (Resolve.log event) := by
  intro state state' paired
  exact .inr ⟨rfl, pairing.logged event paired, by intro failure impossible; cases impossible⟩

theorem Runs.cached? (name : String) : pairing.Runs guard (Resolve.cached? name) (Resolve.cached? name) := by
  intro state state' paired
  refine .inr ⟨?_, paired, by intro failure impossible; cases impossible⟩
  simp only [outcome_cached?, pairing.caches paired]

theorem Runs.store {name : String} (field : Field) (free : name ∉ guard) :
    pairing.Runs guard (Resolve.store name field) (Resolve.store name field) := by
  intro state state' paired
  exact .inr ⟨rfl, pairing.stored field paired free, by intro failure impossible; cases impossible⟩

/-- A name that is under guard already is not let in, and nothing changes for the body. Otherwise the body
runs with the name under guard, which is then released. -/
theorem Runs.guarded {name : String} {body : Bool → Resolve σ α} {body' : Bool → Resolve τ α}
    (refused : name ∈ guard → pairing.Runs guard (body false) (body' false))
    (admitted : name ∉ guard → pairing.Runs (name :: guard) (body true) (body' true)) :
    pairing.Runs guard (Resolve.guarded name body) (Resolve.guarded name body') := by
  intro state state' paired
  obtain ⟨held, held'⟩ := pairing.guards paired
  by_cases inside : name ∈ guard
  · have contains : guard.contains name = true := by simpa using inside
    have runs := refused inside state state' paired
    have same : state.under guard = state := by rw [← held]; rfl
    have same' : state'.under guard = state' := by rw [← held']; rfl
    simp only [outcome_guarded, Guard.enter, held, held', contains, ite_true, Guard.leave, same, same',
      Bool.false_eq_true, ite_false]
    exact runs
  · have contains : guard.contains name = false := by simpa using inside
    have runs := admitted inside _ _ (pairing.entered paired inside)
    simp only [outcome_guarded, Guard.enter, held, held', contains, Guard.leave, ite_true, Bool.false_eq_true,
      ite_false]
    refine runs.imp_right ?_
    rintro ⟨same, after, fails⟩
    obtain ⟨last, last'⟩ := pairing.guards after
    rw [last, last', List.erase_cons_head]
    exact ⟨same, pairing.left paired inside after, fails⟩

end Pairing

/-- The states differ in what the selectors keep, which the relation speaks of. -/
def Pairing.alongside {σ τ : Type} (relates : σ → τ → Prop) : Pairing σ τ where
  states guard first second := (first.guard = guard ∧ second.guard = guard) ∧ first.cache = second.cache ∧
    first.events = second.events ∧ relates first.selector second.selector
  failures _ := True
  guards := fun paired => paired.1
  caches := fun paired => paired.2.1
  logged := by
    rintro guard first second event ⟨held, caches, events, selectors⟩
    exact ⟨held, caches, by simp only [State.logged, events], selectors⟩
  stored := by
    rintro guard first second name field ⟨held, caches, events, selectors⟩ _
    exact ⟨held, by simp only [State.stored, caches], events, selectors⟩
  entered := by
    rintro guard first second name ⟨_, caches, events, selectors⟩ _
    exact ⟨⟨rfl, rfl⟩, caches, events, selectors⟩
  left := by
    rintro guard before before' after after' name _ _ ⟨_, caches, events, selectors⟩
    exact ⟨⟨rfl, rfl⟩, caches, events, selectors⟩
  errors := fun _ _ => trivial
  choices := fun _ => trivial
  fields := fun _ => trivial

end FieldTree
