import FieldTree.Proofs.Resolution.Choiceless
import FieldTree.Proofs.Resolution.Failures

/-! Documents resolved one after another with one selector. One without alternatives asks the selector nothing: it comes
to the same at every place among the others, whatever became of these, and the others come to the same without it. -/

namespace FieldTree

variable {σ : Type}

theorem Selector.first_inRange : first.InRange := by
  intro count state some_branch
  exact ⟨0, (), rfl, Int.le_refl 0, some_branch⟩

namespace Document

variable {bound : Nat} {selector : Selector σ}

/-- The state in which the documents leave the selector, one after another. -/
def selectorAfter (bound : Nat) (selector : Selector σ) (start : σ) (documents : List Document) : σ :=
  documents.foldl (fun state document => (document.resolveWithin bound selector state).selector) start

theorem length_resolveEachWithin (start : σ) (documents : List Document) :
    (resolveEachWithin bound selector start documents).length = documents.length := by
  induction documents generalizing start with
  | nil => rfl
  | cons document rest ih => exact congrArg Nat.succ (ih _)

theorem resolveEachWithin_append (start : σ) (before after : List Document) :
    resolveEachWithin bound selector start (before ++ after) =
      resolveEachWithin bound selector start before ++
        resolveEachWithin bound selector (selectorAfter bound selector start before) after := by
  induction before generalizing start with
  | nil => rfl
  | cons document rest ih => exact congrArg _ (ih _)

/-- A selector that keeps to the branches is never to blame, and without alternatives all selectors lead to the same. -/
theorem not_choice_of_choiceless {document : Document} (choiceless : document.Choiceless) (start : σ)
    (error : ChoiceError) : (document.resolveWithin bound selector start).result ≠ .error (.choice error) := by
  intro failed
  rw [result_of_choiceless choiceless bound selector start Selector.first ()] at failed
  rcases result_of_inRange Selector.first_inRange bound document () with ⟨schema, resolved⟩ | ⟨cause, blamed⟩
  · cases failed.symm.trans resolved
  · cases failed.symm.trans blamed

/-- A document without alternatives asks the selector nothing: no answer is recorded, and none is refused. So the
selector stays where it was, any other leads to the same result by the same way, and among others that are resolved with
the same selector, failing or not, the document comes to the same at every place and changes nothing for them. -/
theorem selector_unasked {document : Document} (choiceless : document.Choiceless) (bound : Nat) (selector : Selector σ)
    (start : σ) :
    (∀ record, (document.resolveWithin bound selector.recording (start, record)).selector.2 = record) ∧
    (∀ error, (document.resolveWithin bound selector start).result ≠ .error (.choice error)) ∧
    (document.resolveWithin bound selector start).selector = start ∧
    (∀ {τ : Type} (other : Selector τ) (start' : τ),
      (document.resolveWithin bound other start').result = (document.resolveWithin bound selector start).result ∧
      (document.resolveWithin bound other start').events = (document.resolveWithin bound selector start).events) ∧
    ∀ before after : List Document, ∃ earlier answer later,
      resolveEachWithin bound selector start (before ++ document :: after) = earlier ++ answer :: later ∧
      resolveEachWithin bound selector start (before ++ after) = earlier ++ later ∧ earlier.length = before.length ∧
      answer.result = (document.resolveWithin bound selector start).result ∧
      answer.events = (document.resolveWithin bound selector start).events := by
  refine ⟨fun record => ?_, not_choice_of_choiceless choiceless start, selector_of_choiceless choiceless bound selector start,
    fun other start' => ⟨result_of_choiceless choiceless bound other start' selector start,
      events_of_choiceless choiceless bound other start' selector start⟩, fun before after => ?_⟩
  · rw [selector_of_choiceless choiceless]
  · refine ⟨resolveEachWithin bound selector start before,
      document.resolveWithin bound selector (selectorAfter bound selector start before),
      resolveEachWithin bound selector (selectorAfter bound selector start before) after, ?_, ?_, ?_, ?_, ?_⟩
    · rw [resolveEachWithin_append]
      simp only [resolveEachWithin, selector_of_choiceless choiceless]
    · exact resolveEachWithin_append start before after
    · exact length_resolveEachWithin start before
    · exact result_of_choiceless choiceless bound selector _ selector start
    · exact events_of_choiceless choiceless bound selector _ selector start

/-- A book that leads to other books, and joint branches on both sides. -/
def shelf : Members := [
  ("definitions", .object [
    ("Book", .object [("type", .string "object"), ("properties", .object [
      ("author", .object [("$ref", .string "#/definitions/Person")]),
      ("sequel", .object [("$ref", .string "#/definitions/Book")])])]),
    ("Person", .object [("allOf", .array [.object [("properties", .object [
      ("name", .object [("type", .string "string")])])]])])]),
  ("properties", .object [("loan", .object [("allOf", .array [.object [("$ref", .string "#/definitions/Book")],
    .object [("properties", .object [("due", .object [("type", .string "string"), ("format", .string "date")])])]])])])]

/-- With a selector that always strays, a document with alternatives fails before it, and it resolves. -/
theorem selector_unasked_shelf : (Document.value (.object shelf)).Choiceless ∧
    ∃ failed resolved, resolveEachWithin 12 (Selector.fixed 5) () [.value (.object answer), .value (.object shelf)] =
        [failed, resolved] ∧
      failed.result = .error (.choice (.outOfRange 5 2)) ∧ resolved.result.toBool = true ∧
      resolved.result = ((Document.value (.object shelf)).resolveWithin 12 Selector.first ()).result := by
  have choiceless : (Document.value (.object shelf)).Choiceless :=
    choiceless_of_root rfl (by unfold Json.Choiceless; decide)
  obtain ⟨_, _, _, others, among⟩ := selector_unasked choiceless 12 (Selector.fixed 5) ()
  obtain ⟨earlier, resolved, later, all, without, length, same, _⟩ := among [.value (.object answer)] []
  have resolves : ((Document.value (.object shelf)).resolveWithin 12 Selector.first ()).result.toBool = true := by
    decide +kernel
  obtain ⟨failed, rfl⟩ := List.length_eq_one_iff.mp length
  obtain ⟨rfl, rfl⟩ := List.cons.inj without
  refine ⟨choiceless, _, resolved, all, rfl, ?_, ?_⟩
  · rw [same, ← (others Selector.first ()).1]
    exact resolves
  · rw [same, ← (others Selector.first ()).1]

end Document
end FieldTree
