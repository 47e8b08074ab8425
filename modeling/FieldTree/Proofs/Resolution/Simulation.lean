import FieldTree.Proofs.Resolution.PairedDocument

/-! Selectors that answer alike from states that belong together lead a document to the same result. So a selector
may stand for another whose first answer is known. -/

namespace FieldTree

namespace Selector

variable {σ τ : Type}

/-- From states that belong together both selectors pick the same branch or fail alike, and the states after it
belong together too. -/
def Simulates (selector : Selector σ) (other : Selector τ) (relates : σ → τ → Prop) : Prop :=
  ∀ count state state', relates state state' →
    (selector.pick count state).1 = (other.pick count state').1 ∧
      relates (selector.pick count state).2 (other.pick count state').2

/-- The selector, whose answer to its first question is known if that is asked for so many branches. -/
def foretold (selector : Selector σ) (count : Int) (start : σ) (answer : Except ChoiceError (Int × σ)) :
    Selector (Option σ) := ⟨fun asked state =>
  (match state with
  | none => if asked = count then answer else selector.choose asked start
  | some state => selector.choose asked state).map fun chosen : Int × σ => (chosen.1, some chosen.2)⟩

theorem simulates_foretold {selector : Selector σ} {count : Int} {start : σ} {answer : Except ChoiceError (Int × σ)}
    (told : selector.choose count start = answer) :
    selector.Simulates (selector.foretold count start answer) fun state state' => state = state'.getD start := by
  rintro asked _ state' rfl
  have same : (selector.foretold count start answer).choose asked state' =
      (selector.choose asked (state'.getD start)).map fun chosen : Int × σ => (chosen.1, some chosen.2) := by
    cases state' with
    | some state => rfl
    | none =>
      simp only [foretold, Option.getD_none]
      split
      · next here => rw [here, told]
      · rfl
  simp only [pick, same]
  cases selector.choose asked (state'.getD start) with
  | error error => exact ⟨rfl, rfl⟩
  | ok chosen =>
    simp only [Except.map]
    split <;> exact ⟨rfl, rfl⟩

end Selector

namespace Resolve

variable {σ τ : Type}

theorem outcome_choose_fst_congr {context : Context σ} {context' : Context τ} {state : State σ} {state' : State τ}
    {count : Nat}
    (same : (context.selector.pick count state.selector).1 = (context'.selector.pick count state'.selector).1) :
    ((choose context count).outcome state).1 = ((choose context' count).outcome state').1 := by
  simp only [outcome, choose, ExceptT.run_mk, StateT.run]
  split
  · next picked =>
    rw [picked] at same
    split
    · next picked' =>
      rw [picked'] at same
      cases same
      rfl
    · next picked' =>
      rw [picked'] at same
      cases same
  · next picked =>
    rw [picked] at same
    split
    · next picked' =>
      rw [picked'] at same
      cases same
    · next picked' =>
      rw [picked'] at same
      cases same
      rfl

end Resolve

namespace Document

variable {σ τ : Type}

theorem result_of_simulates {selector : Selector σ} {other : Selector τ} {relates : σ → τ → Prop}
    (simulates : selector.Simulates other relates) {start : σ} {start' : τ} (related : relates start start')
    (bound : Nat) (document : Document) :
    (document.resolveWithin bound selector start).result = (document.resolveWithin bound other start').result := by
  cases read : document.root with
  | error cause => simp only [resolveWithin, read]
  | ok root =>
    have contexts : (Pairing.alongside relates).Contexts (context root selector) (context root other) True := by
      refine ⟨rfl, fun _ guard count _ => ?_⟩
      rintro first second ⟨held, caches, events, selectors⟩
      obtain ⟨same, after⟩ := simulates count _ _ selectors
      refine .inr ⟨Resolve.outcome_choose_fst_congr same, ?_, fun _ _ => trivial⟩
      rw [Resolve.outcome_choose_snd, Resolve.outcome_choose_snd]
      exact ⟨held, caches, events, after⟩
    rw [resolveWithin_of_root read, resolveWithin_of_root read]
    exact (@run_alongside _ _ True root selector other relates (fun _ => True) contexts
      (fun _ => ⟨fun _ _ => trivial, fun _ _ _ _ => trivial, fun _ => trivial⟩) (fun _ _ _ => trivial) start start'
      related bound).1

end Document

end FieldTree
