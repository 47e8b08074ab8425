import FieldTree.Resolution.Guard
import Mathlib.Data.List.Basic

/-! Sessions, step by step. At any time the names under guard are those of the open blocks that were let in. A block is
let in exactly if no open block has its name, so what ends inside a block, and how it ends, releases nothing of what
that block holds. -/

namespace FieldTree

variable {σ : Type}

namespace Block

/-- The names of the blocks that were let in, the innermost first. -/
def held (blocks : List Block) : Guard := (blocks.filter Block.entered).map Block.name

/-- Blocks one inside the other, the innermost first. One is refused exactly if a block around it holds its name. -/
inductive Nested : List Block → Prop
  | nil : Nested []
  | entered {name : String} {outer : List Block} (nested : Nested outer) (free : name ∉ held outer) :
    Nested (⟨name, true⟩ :: outer)
  | refused {name : String} {outer : List Block} (nested : Nested outer) (taken : name ∈ held outer) :
    Nested (⟨name, false⟩ :: outer)

@[simp] theorem held_nil : held [] = [] := rfl

@[simp] theorem held_entered (name : String) (outer : List Block) : held (⟨name, true⟩ :: outer) = name :: held outer :=
  rfl

@[simp] theorem held_refused (name : String) (outer : List Block) : held (⟨name, false⟩ :: outer) = held outer := rfl

namespace Nested

variable {blocks : List Block} {block : Block} {name : String}

theorem nodup_held (nested : Nested blocks) : (held blocks).Nodup := by
  induction nested with
  | nil => exact List.nodup_nil
  | entered _ free ih => exact List.nodup_cons.mpr ⟨free, ih⟩
  | refused _ _ ih => exact ih

/-- A refused block lies inside one that holds its name, so that a name is held as soon as it is that of any block. -/
theorem mem_held_iff (nested : Nested blocks) : name ∈ held blocks ↔ ∃ block ∈ blocks, block.name = name := by
  induction nested with
  | nil => simp
  | entered _ _ ih => simp [ih, eq_comm]
  | @refused other outer _ taken ih =>
    rw [held_refused]
    constructor
    · intro among
      obtain ⟨block, inside, same⟩ := ih.mp among
      exact ⟨block, List.mem_cons_of_mem _ inside, same⟩
    · rintro ⟨block, inside, rfl⟩
      rcases List.mem_cons.mp inside with rfl | inside
      · exact taken
      · exact ih.mpr ⟨block, inside, rfl⟩

theorem outer (nested : Nested (block :: blocks)) : Nested blocks := by
  cases nested with
  | entered nested => exact nested
  | refused nested => exact nested

end Nested

/-- The open blocks after a step, as told by its answer and the blocks before it. -/
def after (blocks : List Block) : SessionStep × SessionAnswer → List Block
  | (.enter name, .entered value) => ⟨name, value⟩ :: blocks
  | (.exit, _) => blocks.tail
  | (.fail, _) => blocks.tail
  | _ => blocks

/-- The blocks that are open after steps, as told by the answers. -/
def opened (steps : List SessionStep) (answers : List SessionAnswer) : List Block :=
  (steps.zip answers).foldl after []

end Block

namespace Guard
open Block

variable {blocks : List Block}

/-- Under a guard that holds the names of blocks, the next block is let in or refused as it should be. -/
theorem nested_enter (nested : Nested blocks) (name : String) :
    ((held blocks).enter name).2 = held (⟨name, ((held blocks).enter name).1⟩ :: blocks) ∧
      Nested (⟨name, ((held blocks).enter name).1⟩ :: blocks) := by
  by_cases taken : name ∈ held blocks
  · have refused : (held blocks).enter name = (false, held blocks) := by simp [enter, taken]
    rw [refused]
    exact ⟨rfl, .refused nested taken⟩
  · have entered : (held blocks).enter name = (true, name :: held blocks) := by simp [enter, taken]
    rw [entered]
    exact ⟨rfl, .entered nested taken⟩

/-- The innermost block that was let in holds the latest name. -/
theorem leave_held (block : Block) (outer : List Block) :
    leave (held (block :: outer)) block.name block.entered = held outer := by
  obtain ⟨name, entered⟩ := block
  cases entered with
  | true => exact List.erase_cons_head name (held outer)
  | false => rfl

theorem enter_eq_false_iff (guard : Guard) (name : String) : (guard.enter name).1 = false ↔ name ∈ guard := by
  unfold enter
  by_cases taken : name ∈ guard <;> simp [taken]

end Guard

namespace Session
open Block

variable {session : Session σ} {selector : Selector σ}

/-- The open blocks are nested, and the guard holds their names. -/
structure Kept (session : Session σ) : Prop where
  guard : session.guard = held session.blocks
  nested : Nested session.blocks

theorem kept_start (state : σ) : (start state).Kept := ⟨rfl, .nil⟩

theorem Kept.enter (kept : session.Kept) (name : String) : (session.enter name).2.Kept := by
  obtain ⟨guard, nested⟩ := Guard.nested_enter kept.nested name
  rw [← kept.guard] at guard nested
  exact ⟨guard, nested⟩

theorem Kept.close (kept : session.Kept) : session.close.Kept := by
  obtain ⟨guard, nested⟩ := kept
  obtain ⟨names, blocks, state⟩ := session
  change names = held blocks at guard
  subst guard
  cases blocks with
  | nil => exact ⟨rfl, nested⟩
  | cons block outer => exact ⟨Guard.leave_held block outer, nested.outer⟩

theorem Kept.step (kept : session.Kept) (step : SessionStep) : (session.step selector step).2.Kept := by
  cases step with
  | enter name => exact kept.enter name
  | exit => exact kept.close
  | fail => exact kept.close
  | choose count => exact ⟨kept.guard, kept.nested⟩

/-- Steps one after the other: the answers to them, and the session after the last. -/
def run (selector : Selector σ) (session : Session σ) : List SessionStep → List SessionAnswer × Session σ
  | [] => ([], session)
  | step :: rest =>
    let (answer, next) := session.step selector step
    let (answers, last) := next.run selector rest
    (answer :: answers, last)

theorem step_enter (session : Session σ) (selector : Selector σ) (name : String) :
    (session.step selector (.enter name)).1 = .entered (session.guard.enter name).1 := rfl

theorem Kept.run (kept : session.Kept) (selector : Selector σ) (steps : List SessionStep) :
    (session.run selector steps).2.Kept := by
  induction steps generalizing session with
  | nil => exact kept
  | cons step rest ih => exact ih (kept.step step)

/-- The answer to a step tells which blocks are open after it. -/
theorem blocks_step (session : Session σ) (selector : Selector σ) (step : SessionStep) :
    (session.step selector step).2.blocks = after session.blocks (step, (session.step selector step).1) := by
  obtain ⟨guard, blocks, state⟩ := session
  cases step with
  | enter name => rfl
  | exit => cases blocks <;> rfl
  | fail => cases blocks <;> rfl
  | choose count => rfl

theorem blocks_run (session : Session σ) (selector : Selector σ) (steps : List SessionStep) :
    (session.run selector steps).2.blocks =
      (steps.zip (session.run selector steps).1).foldl after session.blocks := by
  induction steps generalizing session with
  | nil => rfl
  | cons step rest ih =>
    have later := ih (session.step selector step).2
    rw [blocks_step] at later
    exact later

/-- After any steps, and so after each of them: the names under guard are exactly those of the open blocks that were let
in, each held by one block; an attempt to enter is refused exactly if there is an open block of the name; the end of a
refused block, with or without an error, releases nothing; a choice leaves the guard as it is, whatever comes of it; and
without open blocks nothing is under guard. -/
theorem guard_of_blocks (selector : Selector σ) (state : σ) (steps : List SessionStep) :
    let ran := (start state).run selector steps
    let blocks := opened steps ran.1
    ran.2.guard = held blocks ∧ (held blocks).Nodup ∧
    (∀ name, ∃ value, (ran.2.step selector (.enter name)).1 = .entered value ∧
      (value = false ↔ ∃ block ∈ blocks, block.name = name)) ∧
    (∀ name outer, blocks = ⟨name, false⟩ :: outer → ∀ step, step = .exit ∨ step = .fail →
      (ran.2.step selector step).2.guard = ran.2.guard) ∧
    (∀ count, (ran.2.step selector (.choose count)).2.guard = ran.2.guard) ∧
    (blocks = [] → ran.2.guard = []) := by
  intro ran blocks
  have told : ran.2.blocks = blocks := blocks_run (start state) selector steps
  obtain ⟨guard, nested⟩ := (kept_start state).run selector steps
  change ran.2.guard = held ran.2.blocks at guard
  change Nested ran.2.blocks at nested
  rw [told] at guard nested
  refine ⟨guard, nested.nodup_held, fun name => ?_, fun name outer refused step ending => ?_, fun _ => rfl, fun none => ?_⟩
  · exact ⟨_, step_enter .., by rw [Guard.enter_eq_false_iff, guard, nested.mem_held_iff]⟩
  · have closed : ran.2.close.guard = ran.2.guard := by
      rw [close, told, refused]
      rfl
    rcases ending with rfl | rfl
    · exact closed
    · exact closed
  · rw [guard, none, held_nil]

/-- The inner attempt fails and leaves the name to the outer block. -/
example : ((start ()).run Selector.first [.enter "a", .enter "b", .enter "a", .fail, .choose 0]).2.guard = ["b", "a"] := by
  decide

end Session
end FieldTree
