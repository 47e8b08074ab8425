import FieldTree.Proofs.Resolution.Conduct

/-! How a resolution can end. Either there is a schema, or the document is at fault; only a selector that strays from
the branches it is offered can add to that. It is asked only when there is a branch to choose. -/

namespace FieldTree

variable {σ : Type}

namespace Selector

/-- The selector answers whenever there is something to choose from. -/
def Responds (selector : Selector σ) : Prop :=
  ∀ count state, 0 < count → ∃ index next, selector.choose count state = .ok (index, next)

/-- What it answers is one of the branches. -/
def InRange (selector : Selector σ) : Prop :=
  ∀ count state, 0 < count → ∃ index next, selector.choose count state = .ok (index, next) ∧ 0 ≤ index ∧ index < count

/-- The selector has this answer to some branches, and it is none of them. -/
def Strays (selector : Selector σ) (index count : Int) : Prop :=
  0 < count ∧ ¬(0 ≤ index ∧ index < count) ∧ ∃ state next, selector.choose count state = .ok (index, next)

/-- The selectors differ at most where there is nothing to choose from. -/
def Alike (selector other : Selector σ) : Prop :=
  ∀ count state, 0 < count → other.choose count state = selector.choose count state

variable {selector : Selector σ}

theorem InRange.not_strays (inRange : selector.InRange) (index count : Int) : ¬selector.Strays index count := by
  rintro ⟨some_branch, outside, state, next, chosen⟩
  obtain ⟨index', next', chosen', within⟩ := inRange count state some_branch
  cases chosen.symm.trans chosen'
  exact outside within

theorem InRange.responds (inRange : selector.InRange) : selector.Responds := by
  intro count state some_branch
  obtain ⟨index, next, chosen, _⟩ := inRange count state some_branch
  exact ⟨index, next, chosen⟩

/-- Random choices never stray. -/
theorem random_inRange : random.InRange := by
  intro count twister some_branch
  have several : ¬count ≤ 0 := by omega
  have chosen : random.choose count twister =
      .ok (((twister.below count.toNat tries).1 : Int), (twister.below count.toNat tries).2) := by
    simp only [random, several, ite_false]
  exact ⟨_, _, chosen, random_range chosen⟩

theorem Responds.pick (responds : selector.Responds) {count : Int} (some_branch : 0 < count) {state next : σ}
    {error : ChoiceError} (picked : selector.pick count state = (.error error, next)) :
    ∃ index, error = .outOfRange index count ∧ selector.Strays index count := by
  obtain ⟨index, later, chosen⟩ := responds count state some_branch
  simp only [Selector.pick, chosen] at picked
  split at picked
  · cases picked
  next outside =>
    cases picked
    exact ⟨index, rfl, some_branch, outside, state, next, chosen⟩

/-- They choose alike among branches. -/
theorem Alike.outcome_choose {context context' : Context σ} (alike : context.selector.Alike context'.selector)
    {count : Nat} (some_branch : 0 < count) (state : State σ) :
    (Resolve.choose context' count).outcome state = (Resolve.choose context count).outcome state := by
  have same : context'.selector.pick count state.selector = context.selector.pick count state.selector := by
    simp only [Selector.pick, alike count state.selector (Int.natCast_pos.mpr some_branch)]
  simp only [Resolve.outcome, Resolve.choose, ExceptT.run_mk, StateT.run]
  split
  next index next picked =>
    split
    next index' next' picked' =>
      cases picked.symm.trans (same.trans picked')
      rfl
    next picked' => cases picked.symm.trans (same.trans picked')
  next error next picked =>
    split
    next picked' => cases picked.symm.trans (same.trans picked')
    next picked' =>
      cases picked.symm.trans (same.trans picked')
      rfl

end Selector

/-- The failures of a document that could be read. -/
def Failure.Semantic (selector : Selector σ) (failure : Failure) : Prop :=
  (∃ cause, failure = .document (.semantic cause)) ∨
    ∃ index count, failure = .choice (.outOfRange index count) ∧ selector.Strays index count

/-- Any state, and the failures of a document that could be read. -/
def Conduct.semantic (selector : Selector σ) : Conduct σ where
  states _ := True
  failures := Failure.Semantic selector
  logged := fun _ _ => trivial
  under := fun _ _ => trivial
  fails := fun cause => .inl ⟨cause, rfl⟩

/-- Nothing is taken to be barren. -/
theorem Selector.Responds.permits {context : Context σ} (responds : context.selector.Responds) :
    (Conduct.semantic context.selector).Permits context fun _ => False := by
  constructor
  · intro count some_branch state _
    refine ⟨?_, trivial⟩
    simp only [Resolve.outcome, Resolve.choose, ExceptT.run_mk, StateT.run]
    split
    · trivial
    next error next picked =>
      obtain ⟨index, rfl, strays⟩ := responds.pick (by omega) picked
      exact .inr ⟨index, count, rfl, strays⟩
  · exact fun _ _ _ _ _ => trivial
  · exact fun impossible => impossible.elim
  · exact fun impossible => impossible.elim
  · exact fun impossible => impossible.elim

namespace Document

/-- The value that a document stands for, if it can be read. -/
def value? : Document → Option Json
  | .text source => Json.read? source
  | .bytes source => (Text.decode? source).bind Json.read?
  | .value (.object members) => some (.object members)
  | .value (.string source) => Json.read? source
  | .value _ => none

/-- The document can be read, and is an object. -/
def Rooted (document : Document) : Prop := ∃ root, document.value? = some (.object root)

theorem root_eq (document : Document) : document.root = root.ofRead document.value? := by
  cases document with
  | text | bytes => rfl
  | value given => cases given <;> rfl

theorem rooted_iff {document : Document} : document.Rooted ↔ ∃ root, document.root = .ok root := by
  rw [root_eq, Rooted]
  cases document.value? with
  | none => simp [root.ofRead]
  | some given => cases given <;> simp [root.ofRead]

theorem result_of_not_rooted {document : Document} (unreadable : ¬document.Rooted) (bound : Nat) (selector : Selector σ)
    (start : σ) :
    ∃ cause, (document.resolveWithin bound selector start).result = .error (.document (.format cause)) := by
  cases read : document.root with
  | ok root => exact absurd (rooted_iff.mpr ⟨root, read⟩) unreadable
  | error cause => exact ⟨cause, by simp only [resolveWithin, read]⟩

theorem result_of_rooted {selector : Selector σ} (responds : selector.Responds) {document : Document}
    (readable : document.Rooted) (bound : Nat) (start : σ) :
    (∃ schema, (document.resolveWithin bound selector start).result = .ok schema) ∨
      ∃ failure, (document.resolveWithin bound selector start).result = .error failure ∧ failure.Semantic selector := by
  obtain ⟨root, read⟩ := rooted_iff.mp readable
  have permits := @Selector.Responds.permits σ (context root selector) responds
  have allowed := (@Conduct.Permits.run _ _ _ _ _ permits start trivial bound).1
  rw [resolveWithin_of_root read]
  cases result : (run bound selector start root).1 with
  | ok schema => exact .inl ⟨schema, rfl⟩
  | error failure =>
    rw [result] at allowed
    exact .inr ⟨failure, rfl, allowed⟩

/-- A selector that keeps to the branches leaves nothing but the document to blame. -/
theorem result_of_inRange {selector : Selector σ} (inRange : selector.InRange) (bound : Nat) (document : Document)
    (start : σ) :
    (∃ schema, (document.resolveWithin bound selector start).result = .ok schema) ∨
      ∃ error, (document.resolveWithin bound selector start).result = .error (.document error) := by
  by_cases readable : document.Rooted
  · rcases result_of_rooted inRange.responds readable bound start with resolved | ⟨_, failed, ⟨cause, rfl⟩ | strayed⟩
    · exact .inl resolved
    · exact .inr ⟨_, failed⟩
    · obtain ⟨index, count, _, strays⟩ := strayed
      exact absurd strays (inRange.not_strays index count)
  · obtain ⟨cause, failed⟩ := result_of_not_rooted readable bound selector start
    exact .inr ⟨_, failed⟩

/-- What a selector would answer if there were nothing to choose from does not matter, since it is never asked then. -/
theorem resolveWithin_of_alike {selector other : Selector σ} (alike : selector.Alike other) (bound : Nat)
    (document : Document) (start : σ) :
    document.resolveWithin bound other start = document.resolveWithin bound selector start := by
  cases read : document.root with
  | error cause => simp only [resolveWithin, read]
  | ok root =>
    have contexts : (Pairing.alongside fun (first second : σ) => first = second).Contexts (context root other)
        (context root selector) True := by
      refine ⟨rfl, fun _ guard count some_branch => ?_⟩
      rintro first second ⟨⟨held, held'⟩, caches, events, selectors⟩
      obtain rfl : first = second := by
        cases first
        cases second
        simp only [State.mk.injEq]
        exact ⟨caches, held.trans held'.symm, selectors, events⟩
      have after := Resolve.outcome_choose_snd (context root selector) count first
      rw [@Selector.Alike.outcome_choose _ (context root selector) (context root other) alike _ some_branch, after]
      exact .inr ⟨rfl, ⟨⟨held, held⟩, rfl, rfl, rfl⟩, fun _ _ => trivial⟩
    obtain ⟨same, _, _, events, selectors⟩ := @run_alongside _ _ True root other selector (· = ·) (fun _ => True)
      contexts (fun _ => ⟨fun _ _ => trivial, fun _ _ _ _ => trivial, fun _ => trivial⟩) (fun _ _ _ => trivial) start
      start rfl bound
    rw [resolveWithin_of_root read, resolveWithin_of_root read, same, events, selectors]

/-- A resolution ends with a schema or with an error of the document: of its format exactly if it cannot be read as an
object, and otherwise of what the object says. No field is asked for what it does not have, and no selector for a branch
of none; only one that answers with none of the branches can end the resolution besides. -/
theorem resolves_or_fails {selector : Selector σ} (responds : selector.Responds) (bound : Nat) (document : Document)
    (start : σ) :
    ((∃ cause, (document.resolveWithin bound selector start).result = .error (.document (.format cause))) ↔
      ¬document.Rooted) ∧
    (document.Rooted → (∃ schema, (document.resolveWithin bound selector start).result = .ok schema) ∨
      (∃ cause, (document.resolveWithin bound selector start).result = .error (.document (.semantic cause))) ∨
      ∃ index count, (document.resolveWithin bound selector start).result = .error (.choice (.outOfRange index count)) ∧
        selector.Strays index count) ∧
    (selector.InRange → (∃ schema, (document.resolveWithin bound selector start).result = .ok schema) ∨
      ∃ error, (document.resolveWithin bound selector start).result = .error (.document error)) ∧
    ∀ other, selector.Alike other →
      document.resolveWithin bound other start = document.resolveWithin bound selector start := by
  refine ⟨⟨?_, fun unreadable => result_of_not_rooted unreadable bound selector start⟩, ?_,
    fun inRange => result_of_inRange inRange bound document start,
    fun other alike => resolveWithin_of_alike alike bound document start⟩
  · rintro ⟨cause, failed⟩ readable
    rcases result_of_rooted responds readable bound start with ⟨schema, resolved⟩ | ⟨failure, failed', semantic⟩
    · cases resolved.symm.trans failed
    · cases failed'.symm.trans failed
      rcases semantic with ⟨cause, impossible⟩ | ⟨_, _, impossible, _⟩ <;> cases impossible
  · intro readable
    rcases result_of_rooted responds readable bound start with resolved | ⟨failure, failed, semantic⟩
    · exact .inl resolved
    · rcases semantic with ⟨cause, rfl⟩ | ⟨index, count, rfl, strays⟩
      · exact .inr (.inl ⟨cause, failed⟩)
      · exact .inr (.inr ⟨index, count, failed, strays⟩)

/-- A property with two alternatives. -/
def answer : Members :=
  [("properties", .object [("answer", .object
    [("anyOf", .array [.object [("type", .string "string")], .object [("type", .string "integer")]])])])]

/-- A selector that always answers five strays from them. -/
theorem answer_strays : (Selector.fixed 5).Responds ∧ (Document.value (.object answer)).Rooted ∧
    ((Document.value (.object answer)).resolveWithin 8 (Selector.fixed 5) ()).result =
      .error (.choice (.outOfRange 5 2)) ∧ (Selector.fixed 5).Strays 5 2 := by
  have responds : (Selector.fixed 5).Responds := fun _ _ _ => ⟨5, (), rfl⟩
  have readable : (Document.value (.object answer)).Rooted := ⟨answer, rfl⟩
  have failed : ((Document.value (.object answer)).resolveWithin 8 (Selector.fixed 5) ()).result =
      .error (.choice (.outOfRange 5 2)) := rfl
  rcases (resolves_or_fails responds 8 (.value (.object answer)) ()).2.1 readable with
    ⟨schema, resolved⟩ | ⟨cause, semantic⟩ | ⟨index, count, strayed, strays⟩
  · cases failed.symm.trans resolved
  · cases failed.symm.trans semantic
  · cases failed.symm.trans strayed
    exact ⟨responds, readable, failed, strays⟩

/-- The first branch is one of them, so the document resolves. -/
example : ((Document.value (.object answer)).resolveWithin 8 Selector.first ()).result.toBool = true := by decide +kernel

end Document
end FieldTree
