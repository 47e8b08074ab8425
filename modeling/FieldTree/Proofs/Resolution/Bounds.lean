import FieldTree.Proofs.Resolution.Nesting

/-! The bound on the nesting decides no more than whether a resolution ends for want of room. Where it ends in any other
way, it ends so for every greater bound. -/

namespace FieldTree

/-- Both resolutions are in one state. The first may end for being nested too deep, and nothing is said of the second
then. -/
def Pairing.growing (σ : Type) : Pairing σ σ :=
  { Pairing.settled σ with
    failures := fun _ => True
    excused := fun failure => failure = .tooDeep
    errors := fun _ _ => trivial
    choices := fun _ => trivial
    fields := fun _ => trivial }

namespace Walker

variable {σ : Type}

theorem contexts_growing (context : Context σ) : (Pairing.growing σ).Contexts context context True := by
  refine ⟨rfl, fun _ guard count _ state state' paired => ?_⟩
  obtain ⟨same, after, _⟩ := (choose_settled context guard count).alike (fun _ => id) paired
  exact .inr ⟨same, after, fun _ _ => trivial⟩

/-- A walker with less room walks like one with more, until it has none left. -/
theorem walker_growing (context : Context σ) (bound more : Nat) :
    Paired (Pairing.growing σ) (fun _ _ => True) (walker context bound) (walker context (bound + more)) := by
  induction bound with
  | zero => exact ⟨fun _ => .excuse rfl _, fun _ => .excuse rfl _, fun _ => .excuse rfl _⟩
  | succ bound ih =>
    rw [Nat.add_right_comm]
    exact ih.succ (contexts_growing context) fun _ => ⟨fun _ _ => trivial, fun _ _ _ _ => trivial, fun _ => trivial⟩

end Walker

namespace Document

variable {σ : Type} {bound bound' : Nat} {selector : Selector σ} {start : σ} {document : Document}

/-- With more room a resolution ends in the same way, unless it has ended for want of room. -/
theorem resolveWithin_of_le (less : bound ≤ bound')
    (roomy : (document.resolveWithin bound selector start).result ≠ .error .tooDeep) :
    document.resolveWithin bound' selector start = document.resolveWithin bound selector start := by
  obtain ⟨more, rfl⟩ := Nat.exists_eq_add_of_le less
  cases rooted : document.root with
  | error cause => simp only [resolveWithin, rooted]
  | ok root =>
    rw [resolveWithin_of_root rooted] at roomy ⊢
    rw [resolveWithin_of_root rooted]
    have runs := schema_runs (Walker.walker_growing (context root selector) bound more)
      (Walker.contexts_growing (context root selector)) ⟨fun _ _ => trivial, fun _ _ _ => trivial⟩ root
      fun _ _ => trivial
    rcases runs ⟨[], [], start, []⟩ ⟨[], [], start, []⟩ ⟨rfl, rfl⟩ with ⟨failure, fails, rfl⟩ | ⟨same, ⟨after, _⟩, _⟩
    · exact absurd fails roomy
    · have runs : run bound selector start root = run (bound + more) selector start root := Prod.ext same after
      rw [runs]

/-- Two resolutions of a document that do not end for want of room end in the same way, whatever room there was. -/
theorem resolveWithin_eq_of_roomy (roomy : (document.resolveWithin bound selector start).result ≠ .error .tooDeep)
    (roomy' : (document.resolveWithin bound' selector start).result ≠ .error .tooDeep) :
    document.resolveWithin bound selector start = document.resolveWithin bound' selector start := by
  rcases Nat.le_total bound bound' with less | less
  · exact (resolveWithin_of_le less roomy).symm
  · exact resolveWithin_of_le less roomy'

end Document
end FieldTree
