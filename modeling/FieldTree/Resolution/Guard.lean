import FieldTree.Selector.Basic
/-! The guard against cycles: the names that are being resolved. A name under guard is not entered
again, and the refused attempt leaves the guard as it is. -/

namespace FieldTree

/-- The names under guard, the latest first. -/
abbrev Guard := List String

namespace Guard

/-- Whether the name was let in, and the guard after that. -/
def enter (guard : Guard) (name : String) : Bool × Guard :=
  if guard.contains name then (false, guard) else (true, name :: guard)

/-- Ends an attempt to enter. Only one that was let in releases its name. -/
def leave (guard : Guard) (name : String) (entered : Bool) : Guard :=
  if entered then guard.erase name else guard

end Guard

/-- An attempt to enter that has not ended yet. -/
structure Block where
  name : String
  entered : Bool
  deriving DecidableEq

/-- A guard with its open blocks, the innermost first, and a selector's state. -/
structure Session (σ : Type) where
  guard : Guard
  blocks : List Block
  selector : σ

/-- A step of a session. A block ends in the same way when it is left by an error. -/
inductive SessionStep
  | enter (name : String)
  | exit
  | fail
  | choose (count : Int)

/-- What a step answers: whether a name was let in, that no error was held back, or a choice. -/
inductive SessionAnswer
  | entered (value : Bool)
  | closed
  | chosen (result : Except ChoiceError Int)

namespace Session

def start {σ : Type} (state : σ) : Session σ := ⟨[], [], state⟩

def enter {σ : Type} (session : Session σ) (name : String) : Bool × Session σ :=
  let (entered, guard) := session.guard.enter name
  (entered, { session with guard, blocks := ⟨name, entered⟩ :: session.blocks })

/-- Ends the innermost block, if there is one. -/
def close {σ : Type} (session : Session σ) : Session σ :=
  match session.blocks with
  | [] => session
  | block :: outer => { session with guard := session.guard.leave block.name block.entered, blocks := outer }

def step {σ : Type} (selector : Selector σ) (session : Session σ) : SessionStep → SessionAnswer × Session σ
  | .enter name =>
    let (entered, session) := session.enter name
    (.entered entered, session)
  | .exit => (.closed, session.close)
  | .fail => (.closed, session.close)
  | .choose count =>
    let (result, state) := selector.pick count session.selector
    (.chosen result, { session with selector := state })

end Session
end FieldTree
