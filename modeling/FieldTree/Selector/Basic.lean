import FieldTree.Selector.Twister
/-! Selectors choose one branch among alternatives. They may keep a state from one choice to the next. -/

namespace FieldTree

/-- Why no branch was chosen: there was none to choose from, or the choice was none of them. -/
inductive ChoiceError
  | emptyRange
  | outOfRange (index count : Int)
  deriving DecidableEq

/-- The own wording of an error. A source of random numbers has none for an empty range. -/
def ChoiceError.message? : ChoiceError → Option String
  | .emptyRange => none
  | .outOfRange index count =>
    some ("Branch selector returned " ++ toString index ++ " for " ++ toString count ++ " branches.")

/-- From a number of branches and a state, an index and the next state. -/
structure Selector (σ : Type) where
  choose : Int → σ → Except ChoiceError (Int × σ)

namespace Selector

def first : Selector Unit := ⟨fun _ _ => .ok (0, ())⟩

def last : Selector Unit := ⟨fun count _ => .ok (count - 1, ())⟩

def fixed (index : Int) : Selector Unit := ⟨fun _ _ => .ok (index, ())⟩

/-- The indices in turn, over and over; the state is what is left of the current round. -/
def cycle (indices : List Int) : Selector (List Int) := ⟨fun _ left =>
  match left, indices with
  | index :: rest, _ => .ok (index, rest)
  | [], index :: rest => .ok (index, rest)
  | [], [] => .error .emptyRange⟩

/-- Tries for one random number below a bound. -/
def tries : Nat := 4096

/-- Random choices from a generator, each as likely as the others. -/
def random : Selector Twister := ⟨fun count twister =>
  if count ≤ 0 then .error .emptyRange
  else
    let (index, twister) := twister.below count.toNat tries
    .ok (index, twister)⟩

/-- The selector, with a record of its answers to each number of branches, the latest first. -/
def recording {σ : Type} (selector : Selector σ) : Selector (σ × List (Int × Int)) := ⟨fun count (state, record) =>
  (selector.choose count state).map fun (index, next) => (index, next, (count, index) :: record)⟩

/-- The selector's choice, if it is one of the branches. The state moves on even if it is not. -/
def pick {σ : Type} (selector : Selector σ) (count : Int) (state : σ) : Except ChoiceError Int × σ :=
  match selector.choose count state with
  | .error error => (.error error, state)
  | .ok (index, next) =>
    if 0 ≤ index ∧ index < count then (.ok index, next) else (.error (.outOfRange index count), next)

theorem pick_range {σ : Type} {selector : Selector σ} {count index : Int} {state next : σ}
    (picked : selector.pick count state = (.ok index, next)) : 0 ≤ index ∧ index < count := by
  unfold pick at picked
  split at picked
  · simp at picked
  · split at picked
    · simp_all
    · simp at picked

theorem random_range {count index : Int} {twister next : Twister}
    (chosen : random.choose count twister = .ok (index, next)) : 0 ≤ index ∧ index < count := by
  simp only [random] at chosen
  split at chosen
  · cases chosen
  · next positive =>
    injection chosen with chosen
    injection chosen with same
    subst same
    have positive' : 0 < count.toNat := by omega
    have bound := Twister.below_lt positive' tries twister
    omega

end Selector
end FieldTree
