import FieldTree.Proofs.Resolution.PairedDocument

/-! A document that offers no choice among branches never asks its selector. -/

namespace FieldTree

/-- A node with alternatives of its own. -/
def Json.offersChoice : Json → Bool
  | .object members => Members.gives members Combinator.anyOf.keyword || Members.gives members Combinator.oneOf.keyword
  | _ => false

/-- Nothing in the value has alternatives. -/
def Json.Choiceless (value : Json) : Prop := ∀ part ∈ value.parts, part.offersChoice = false

def Document.Choiceless (document : Document) : Prop := ∀ root, document.root = .ok root → (Json.object root).Choiceless

theorem Json.Choiceless.inherited : Inherited Choiceless := inherited_forall_parts _

theorem Document.choiceless_of_root {document : Document} {root : Members} (rooted : document.root = .ok root)
    (choiceless : (Json.object root).Choiceless) : document.Choiceless := by
  intro other same
  cases rooted.symm.trans same
  exact choiceless

/-- It holds of the definitions and of the properties of a root. -/
theorem Json.Choiceless.member {root : Members} (choiceless : (Json.object root).Choiceless) {key : String}
    {entry : String × Json} (among : entry ∈ Json.members (root.given? key)) : entry.2.Choiceless :=
  Node.inherited_member inherited choiceless among

namespace Walker

variable {σ : Type}

theorem leads_of_choiceless {context : Context σ} (bodies : ∀ entry ∈ context.definitions, entry.2.Choiceless)
    {guard : Guard} {node : Members} (choiceless : (Json.object node).Choiceless) :
    context.Leads (fun _ node => node.Choiceless) False guard node := by
  refine ⟨fun part inside => Json.Choiceless.inherited.inside choiceless inside, fun target body _ given => ?_,
    fun offers => ?_⟩
  · exact bodies _ (Members.mem_of_given? given)
  · have none := choiceless _ (Json.self_mem_parts _)
    simp only [Json.offersChoice, Bool.or_eq_false_iff] at none
    rcases offers with gives | gives
    · rw [none.1] at gives
      cases gives
    · rw [none.2] at gives
      cases gives

end Walker

namespace Document

variable {σ τ : Type}

/-- Two selectors, in states of which anything may be kept, where nobody asks them. -/
theorem contexts_unasked (relates : σ → τ → Prop) (root : Members) (selector : Selector σ) (selector' : Selector τ) :
    (Pairing.alongside relates).Contexts (context root selector) (context root selector') False :=
  ⟨rfl, fun impossible => impossible.elim⟩

/-- Without alternatives all selectors lead to the same result by the same way, and stay as they are. -/
theorem run_of_choiceless {root : Members} (choiceless : (Json.object root).Choiceless) (bound : Nat)
    (selector : Selector σ) (start : σ) (selector' : Selector τ) (start' : τ) :
    (run bound selector start root).1 = (run bound selector' start' root).1 ∧
      (run bound selector start root).2.events = (run bound selector' start' root).2.events ∧
      (run bound selector start root).2.selector = start := by
  have inside : ∀ key, ∀ entry ∈ Json.members (root.given? key), entry.2.Choiceless := fun key entry => choiceless.member
  have contexts := contexts_unasked (fun state (_ : τ) => state = start) root selector selector'
  have leads := fun {guard node} => @Walker.leads_of_choiceless σ (context root selector) (inside "definitions") guard node
  obtain ⟨same, _, _, events, still⟩ := @run_alongside _ _ _ _ _ _ _ _ contexts leads inside start start' rfl bound
  exact ⟨same, events, still⟩

theorem result_of_choiceless {document : Document} (choiceless : document.Choiceless) (bound : Nat)
    (selector : Selector σ)
    (start : σ) (selector' : Selector τ) (start' : τ) :
    (document.resolveWithin bound selector start).result = (document.resolveWithin bound selector' start').result := by
  cases rooted : document.root with
  | error cause => simp only [resolveWithin, rooted]
  | ok root =>
    rw [resolveWithin_of_root rooted, resolveWithin_of_root rooted]
    exact (run_of_choiceless (choiceless root rooted) bound selector start selector' start').1

theorem events_of_choiceless {document : Document} (choiceless : document.Choiceless) (bound : Nat)
    (selector : Selector σ) (start : σ) (selector' : Selector τ) (start' : τ) :
    (document.resolveWithin bound selector start).events = (document.resolveWithin bound selector' start').events := by
  cases rooted : document.root with
  | error cause => simp only [resolveWithin, rooted]
  | ok root =>
    rw [resolveWithin_of_root rooted, resolveWithin_of_root rooted,
      (run_of_choiceless (choiceless root rooted) bound selector start selector' start').2.1]

theorem selector_of_choiceless {document : Document} (choiceless : document.Choiceless) (bound : Nat)
    (selector : Selector σ) (start : σ) : (document.resolveWithin bound selector start).selector = start := by
  cases rooted : document.root with
  | error cause => simp only [resolveWithin, rooted]
  | ok root =>
    rw [resolveWithin_of_root rooted]
    exact (run_of_choiceless (choiceless root rooted) bound selector start selector start).2.2

end Document
end FieldTree
