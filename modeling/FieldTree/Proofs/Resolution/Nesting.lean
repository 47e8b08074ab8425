import FieldTree.Proofs.Resolution.PairedDocument

/-! Resolution ends for every document, whatever its references: the nodes that are open at one time are never
nested deeper than a limit that is read off the document. On the way down, either the node becomes less deep, or
a definition is entered that was not under guard. -/

namespace FieldTree

/-- How many definitions are still free to be entered. -/
def Guard.free (guard : Guard) (definitions : Members) : Nat :=
  definitions.countP fun entry => !guard.contains entry.1

/-- How many walks may be open at one time from a node on: those of the node itself, and those of every body
that can still be entered. -/
def Guard.need (guard : Guard) (definitions : Members) (node : Json) : Nat :=
  node.depth + 1 + guard.free definitions * (Json.depthOfMembers definitions + 1)

/-- The limit for a document: one round more than there are definitions, each as long as the document is deep. -/
def Document.limit (document : Document) : Nat :=
  match document.root with
  | .ok root => (root.declarations.length + 1) * ((Json.object root).depth + 1)
  | .error _ => 0

namespace Guard

theorem free_le (guard : Guard) (definitions : Members) : guard.free definitions ≤ definitions.length :=
  List.countP_le_length

private theorem free_cons_le (guard : Guard) (name : String) (definitions : Members) :
    Guard.free (name :: guard) definitions ≤ guard.free definitions := by
  refine List.countP_mono_left ?_
  intro entry _ free
  simp only [List.contains_cons, Bool.not_or, Bool.and_eq_true] at free
  exact free.2

theorem free_cons_lt {guard : Guard} {name : String} {definitions : Members} (absent : name ∉ guard) {body : Json}
    (declared : (name, body) ∈ definitions) : Guard.free (name :: guard) definitions < guard.free definitions := by
  induction definitions with
  | nil => cases declared
  | cons entry rest ih =>
    have fewer := free_cons_le guard name rest
    rcases List.mem_cons.mp declared with rfl | later
    · have outside : guard.contains name = false := by simpa using absent
      simp only [free, List.countP_cons, List.contains_cons, beq_self_eq_true, outside, Bool.true_or, Bool.not_true,
        Bool.not_false, Bool.false_eq_true, ite_true, ite_false] at fewer ⊢
      omega
    · have below := ih later
      have here := free_cons_le guard name [entry]
      simp only [free, List.countP_cons, List.countP_nil] at below here ⊢
      omega

theorem need_part_lt {guard : Guard} {definitions node : Members} {part : Json}
    (inside : part ∈ Json.partsOfMembers node) :
    guard.need definitions part < guard.need definitions (.object node) := by
  have less := Json.depth_lt_of_mem_partsOfMembers inside
  unfold need
  omega

theorem need_body_lt {guard : Guard} {definitions : Members} {target : String} {body : Json} (absent : target ∉ guard)
    (given : definitions.given? target = some body) (node : Json) :
    Guard.need (target :: guard) definitions body < guard.need definitions node := by
  have entered := free_cons_lt absent (Members.mem_of_given? given)
  have shallow := Json.depth_le_of_mem_partsOfMembers definitions (Members.mem_parts_of_given? given)
  have rounds : (Guard.free (target :: guard) definitions + 1) * (Json.depthOfMembers definitions + 1) ≤
      guard.free definitions * (Json.depthOfMembers definitions + 1) := Nat.mul_le_mul_right _ entered
  unfold need
  rw [Nat.succ_mul] at rounds
  omega

end Guard

/-- Both resolutions are in one state, and neither ends for being nested too deep. -/
def Pairing.settled (σ : Type) : Pairing σ σ where
  states guard first second := first = second ∧ first.guard = guard
  failures failure := failure ≠ .tooDeep
  guards := by
    rintro guard first second ⟨rfl, held⟩
    exact ⟨held, held⟩
  caches := by
    rintro guard first second ⟨rfl, _⟩
    rfl
  logged := by
    rintro guard first second event ⟨rfl, held⟩
    exact ⟨rfl, held⟩
  stored := by
    rintro guard first second name field ⟨rfl, held⟩ _
    exact ⟨rfl, held⟩
  entered := by
    rintro guard first second name ⟨rfl, _⟩ _
    exact ⟨rfl, rfl⟩
  left := by
    rintro guard before before' after after' name _ _ ⟨rfl, _⟩
    exact ⟨rfl, rfl⟩
  errors := by
    rintro error own ⟨⟩
    cases own
  choices := by simp [Failure.tooDeep]
  fields := by simp [Failure.tooDeep]

namespace Walker

variable {σ : Type}

theorem choose_settled (context : Context σ) (guard : Guard) (count : Nat) :
    (Pairing.settled σ).Runs guard (Resolve.choose context count) (Resolve.choose context count) := by
  rintro state _ ⟨rfl, held⟩
  refine .inr ⟨rfl, ⟨rfl, ?_⟩, ?_⟩
  · rw [Resolve.outcome_choose_snd]
    exact held
  · intro failure fails
    obtain ⟨error, rfl⟩ := Resolve.choice_of_outcome_choose fails
    exact (Pairing.settled σ).choices error

theorem contexts_settled (context : Context σ) : (Pairing.settled σ).Contexts context context True :=
  ⟨rfl, fun _ guard count _ => choose_settled context guard count⟩

/-- Two walkers with enough room walk a node alike. -/
theorem walker_settled (context : Context σ) (room : Nat) {bound bound' : Nat} (enough : room ≤ bound)
    (enough' : room ≤ bound') :
    Paired (Pairing.settled σ) (fun guard node => guard.need context.definitions node ≤ room) (walker context bound)
      (walker context bound') := by
  induction room generalizing bound bound' with
  | zero =>
    have never : ∀ guard node, ¬Guard.need guard context.definitions node ≤ 0 := by
      intro guard node
      unfold Guard.need
      omega
    exact ⟨fun fit => absurd fit (never _ _), fun fit => absurd fit (never _ _), fun fit => absurd fit (never _ _)⟩
  | succ room ih =>
    obtain ⟨below, rfl⟩ := Nat.exists_eq_succ_of_ne_zero (n := bound) (by omega)
    obtain ⟨below', rfl⟩ := Nat.exists_eq_succ_of_ne_zero (n := bound') (by omega)
    have paired := @ih below below' (by omega) (by omega)
    have leads : ∀ {guard : Guard} {node : Members}, guard.need context.definitions (.object node) ≤ room + 1 →
        context.Leads (fun guard node => guard.need context.definitions node ≤ room) True guard node := by
      intro guard node fit
      refine ⟨fun part inside => ?_, fun target body absent given => ?_, fun _ => trivial⟩
      · have less : guard.need context.definitions part < guard.need context.definitions (.object node) :=
          Guard.need_part_lt inside
        omega
      · have less := Guard.need_body_lt absent given (.object node)
        omega
    exact paired.succ (contexts_settled context) leads

end Walker

namespace Document

variable {σ : Type}

/-- The limit covers the walk of every definition and of every property, whatever is under guard. -/
theorem need_le_limit (guard : Guard) (root : Members) {key : String} {entry : String × Json}
    (member : entry ∈ Json.members (root.given? key)) :
    guard.need root.declarations entry.2 ≤ (root.declarations.length + 1) * ((Json.object root).depth + 1) := by
  have shallow : ∀ key, ∀ entry ∈ Json.members (root.given? key), entry.2.depth < (Json.object root).depth := by
    intro key entry member
    have among : entry.2 ∈ Json.partsOfMembers (Json.members (root.given? key)) :=
      Json.mem_partsOfMembers.mpr ⟨entry, member, entry.2.self_mem_parts⟩
    exact Json.depth_lt_of_mem_partsOfMembers (Node.mem_parts_of_members among)
  have body : Json.depthOfMembers root.declarations + 1 ≤ (Json.object root).depth + 1 := by
    apply Nat.succ_le_succ
    exact Json.depthOfMembers_le fun entry member => Nat.le_of_lt (shallow "definitions" entry member)
  have rounds := Nat.mul_le_mul (guard.free_le root.declarations) body
  have less := shallow key entry member
  rw [Nat.succ_mul]
  unfold Guard.need
  omega

theorem schema_settled (selector : Selector σ) (root : Members) {bound bound' : Nat}
    (enough : (root.declarations.length + 1) * ((Json.object root).depth + 1) ≤ bound)
    (enough' : (root.declarations.length + 1) * ((Json.object root).depth + 1) ≤ bound') :
    (Pairing.settled σ).Runs [] (schema (context root selector) (walker (context root selector) bound) root)
      (schema (context root selector) (walker (context root selector) bound') root) := by
  have paired := Walker.walker_settled (context root selector) _ enough enough'
  refine schema_runs paired (Walker.contexts_settled _) ⟨?_, ?_⟩ root ?_
  · intro entry member
    exact need_le_limit [] root member
  · intro target body given
    exact need_le_limit [target] root (Members.mem_of_given? given)
  · intro entry member
    exact need_le_limit [] root member

theorem limit_of_root {document : Document} {root : Members} (rooted : document.root = .ok root) :
    document.limit = (root.declarations.length + 1) * ((Json.object root).depth + 1) := by
  simp only [limit, rooted]

/-- With room for the limit it does not matter how much room there is, and there is enough. -/
theorem resolveWithin_of_limit_le (selector : Selector σ) (start : σ) {document : Document} {bound bound' : Nat}
    (enough : document.limit ≤ bound) (enough' : document.limit ≤ bound') :
    document.resolveWithin bound selector start = document.resolveWithin bound' selector start ∧
      (document.resolveWithin bound selector start).result ≠ .error .tooDeep := by
  cases rooted : document.root with
  | error cause =>
    simp only [resolveWithin, rooted]
    exact ⟨trivial, by simp [Failure.tooDeep]⟩
  | ok root =>
    rw [limit_of_root rooted] at enough enough'
    have runs := @schema_settled _ selector root bound bound' enough enough'
    have fresh : (Pairing.settled σ).states [] ⟨[], [], start, []⟩ ⟨[], [], start, []⟩ := ⟨rfl, rfl⟩
    obtain ⟨same, ⟨after, _⟩, settled⟩ := runs.alike (fun _ => id) fresh
    have runs : run bound selector start root = run bound' selector start root := Prod.ext same after
    rw [resolveWithin_of_root rooted, resolveWithin_of_root rooted, runs]
    refine ⟨rfl, fun deep => ?_⟩
    exact settled _ (same.trans deep) rfl

/-- With the limit as the bound, and with any greater one, resolution ends in the same way: with the same schema
or error, the same choices made and the same events, and never for want of room. -/
theorem resolveWithin_limit (selector : Selector σ) (start : σ) (document : Document) (more : Nat) :
    document.resolveWithin (document.limit + more) selector start =
      document.resolveWithin document.limit selector start ∧
      (document.resolveWithin (document.limit + more) selector start).result ≠ .error .tooDeep :=
  resolveWithin_of_limit_le selector start (Nat.le_add_right _ _) (Nat.le_refl _)

end Document
end FieldTree
