import FieldTree.Resolution.Event
import FieldTree.Resolution.Guard
/-! The state of one resolution, and the steps that change it. The state outlives a failure. -/

namespace FieldTree

structure State (σ : Type) where
  cache : Entries Field
  guard : Guard
  selector : σ
  /-- The latest first. -/
  events : List Event

/-- What a resolution is given: the definitions of the document, and who chooses among branches. -/
structure Context (σ : Type) where
  definitions : Members
  selector : Selector σ

abbrev Resolve (σ : Type) := ExceptT Failure (StateM (State σ))

namespace Resolve

variable {σ α : Type}

def fail (error : SemanticError) : Resolve σ α := throw (.document (.semantic error))

/-- What is asked of a field fails with the field's own error. -/
def ofField (result : Except FieldError α) : Resolve σ α :=
  match result with
  | .ok value => pure value
  | .error error => throw (.field error)

def log (event : Event) : Resolve σ Unit := modify fun state => { state with events := event :: state.events }

def cached? (name : String) : Resolve σ (Option Field) := return (← get).cache.get? name

def store (name : String) (field : Field) : Resolve σ Unit :=
  modify fun state => { state with cache := state.cache.insert name field }

/-- Runs the body with the name under guard, and tells it whether the name was let in. The guard is
released also when the body fails. -/
def guarded (name : String) (body : Bool → Resolve σ α) : Resolve σ α := ExceptT.mk fun state =>
  let (entered, guard) := state.guard.enter name
  let (result, after) := (body entered).run.run { state with guard }
  (result, { after with guard := after.guard.leave name entered })

/-- A branch among `count`. -/
def choose (context : Context σ) (count : Nat) : Resolve σ (Fin count) := ExceptT.mk fun state =>
  match picked : context.selector.pick count state.selector with
  | (.ok index, next) =>
    have range := Selector.pick_range picked
    (.ok ⟨index.toNat, by omega⟩, { state with selector := next })
  | (.error error, next) => (.error (.choice error), { state with selector := next })

end Resolve
end FieldTree
