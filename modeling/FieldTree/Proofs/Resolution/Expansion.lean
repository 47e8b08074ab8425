import FieldTree.Proofs.Resolution.Definitions

/-! Resolution sees through the cache: what is stored for an acyclic definition is what its body expands to, with
every reference replaced by the expansion of its target. Whether fields are required is left out; that depends on who
asked for the definition first. -/

namespace FieldTree
open Relation

/-- The expansion of a definition, with references inside one another at most as many times as there are rounds. -/
def ExpandsWithin (definitions : Members) (answer : Int → Except ChoiceError Int) : Nat → String → Field → Prop
  | 0, _, _ => False
  | rounds + 1, name, field => ∃ body, definitions.given? name = some (.object body) ∧
    Settles answer (ExpandsWithin definitions answer rounds)
      (.node .definition (.named (some name)) (.object body)) [field]

def Expands (definitions : Members) (answer : Int → Except ChoiceError Int) (name : String) (field : Field) : Prop :=
  ∃ rounds, ExpandsWithin definitions answer rounds name field

section
variable {definitions : Members} {answer : Int → Except ChoiceError Int} {name : String} {field : Field}

theorem ExpandsWithin.succ {rounds : Nat} (expands : ExpandsWithin definitions answer rounds name field) :
    ExpandsWithin definitions answer (rounds + 1) name field := by
  induction rounds generalizing name field with
  | zero => exact expands.elim
  | succ rounds ih =>
    obtain ⟨body, given, settles⟩ := expands
    exact ⟨body, given, settles.mono fun target _ field expands => ih expands⟩

theorem ExpandsWithin.le {rounds rounds' : Nat} (expands : ExpandsWithin definitions answer rounds name field)
    (more : rounds ≤ rounds') : ExpandsWithin definitions answer rounds' name field := by
  induction more with
  | refl => exact expands
  | step _ ih => exact ih.succ

/-- A definition expands to one field. -/
theorem Expands.unique {other : Field} (first : Expands definitions answer name field)
    (second : Expands definitions answer name other) : other = field := by
  have within : ∀ rounds {name field other}, ExpandsWithin definitions answer rounds name field →
      ExpandsWithin definitions answer rounds name other → field = other := by
    intro rounds
    induction rounds with
    | zero => exact fun impossible => impossible.elim
    | succ rounds ih =>
      rintro name field other ⟨body, given, settles⟩ ⟨body', given', settles'⟩
      rw [given] at given'
      cases given'
      exact (List.cons.inj (settles.unique settles' fun target _ _ _ => ih)).1
  obtain ⟨rounds, expands⟩ := first
  obtain ⟨rounds', expands'⟩ := second
  exact within _ (expands'.le (Nat.le_max_right rounds rounds')) (expands.le (Nat.le_max_left rounds rounds'))

/-- Enough rounds for every reference are enough for the node. -/
theorem exists_rounds {holds : Nat → String → Prop}
    (more : ∀ {rounds rounds' name}, rounds ≤ rounds' → holds rounds name →
    holds rounds' name) (names : List String) (each : ∀ name ∈ names, ∃ rounds, holds rounds name) :
    ∃ rounds, ∀ name ∈ names, holds rounds name := by
  induction names with
  | nil => exact ⟨0, List.forall_mem_nil _⟩
  | cons name rest ih =>
    obtain ⟨rounds, here⟩ := each name List.mem_cons_self
    obtain ⟨rounds', later⟩ := ih fun name among => each name (List.mem_cons_of_mem _ among)
    refine ⟨max rounds rounds', List.forall_mem_cons.mpr ⟨more (Nat.le_max_left _ _) here, fun name among => ?_⟩⟩
    exact more (Nat.le_max_right _ _) (later name among)

theorem Settles.within {task : Task} {fields : List Field}
    (settles : Settles answer (Expands definitions answer) task fields) :
    ∃ rounds, Settles answer (ExpandsWithin definitions answer rounds) task fields := by
  have enough : ∃ rounds, ∀ target ∈ task.references, ∀ field, Expands definitions answer target field →
      ExpandsWithin definitions answer rounds target field := by
    apply exists_rounds (fun more within field expands => (within field expands).le more) _
    intro target _
    by_cases some_field : ∃ field, Expands definitions answer target field
    · obtain ⟨field, rounds, within⟩ := some_field
      refine ⟨rounds, fun other expands => ?_⟩
      rw [Expands.unique ⟨rounds, within⟩ expands]
      exact within
    · exact ⟨0, fun field expands => absurd ⟨field, expands⟩ some_field⟩
  obtain ⟨rounds, enough⟩ := enough
  exact ⟨rounds, settles.mono enough⟩

/-- The expansion of a definition is what its body comes to if every reference stands for the expansion of its
target. -/
theorem expands_iff : Expands definitions answer name field ↔ ∃ body, definitions.given? name = some (.object body) ∧
    Settles answer (Expands definitions answer) (.node .definition (.named (some name)) (.object body)) [field] := by
  constructor
  · rintro ⟨rounds, within⟩
    cases rounds with
    | zero => exact within.elim
    | succ rounds =>
      obtain ⟨body, given, settles⟩ := within
      exact ⟨body, given, settles.mono fun target _ field within => ⟨rounds, within⟩⟩
  · rintro ⟨body, given, settles⟩
    obtain ⟨rounds, within⟩ := settles.within
    exact ⟨rounds + 1, body, given, within⟩

theorem Expands.of_same {definitions' : Members} (expands : Expands definitions answer name field)
    (same : ∀ name, definitions'.given? name = definitions.given? name) : Expands definitions' answer name field := by
  obtain ⟨rounds, within⟩ := expands
  induction rounds generalizing name field with
  | zero => exact within.elim
  | succ rounds ih =>
    obtain ⟨body, given, settles⟩ := within
    exact expands_iff.mpr ⟨body, (same name).trans given, settles.mono fun target _ field within => ih within⟩

theorem Expands.named (expands : Expands definitions answer name field) : field.name = some name := by
  obtain ⟨body, given, settles⟩ := expands_iff.mp expands
  obtain ⟨_, same, named⟩ := settles.named
  rw [(List.cons.inj same).1]
  exact named

/-- Up to requirements, what is settled in the cache is the expansion. The induction is along the references; for an
alias that took over the body of another definition, it looks one reference further. -/
theorem Entries.Settled.expands {cache : Entries Field} {passed : List String}
    (settled : cache.Settled definitions answer passed)
    (unmixed : definitions.Unmixed) (acyclic : Acyclic definitions name) (known : cache.get? name = some field) :
    ∃ expanded, Expands definitions answer name expanded ∧ expanded.erase = field.erase := by
  revert field
  refine @Acyclic.induction_trans _ _ (fun name => ∀ {field}, cache.get? name = some field →
    ∃ expanded, Expands definitions answer name expanded ∧ expanded.erase = field.erase)
      (fun name acyclic below => ?_) acyclic
  intro field known
  obtain ⟨site, body, named, source, settles⟩ := settled name field acyclic known
  have name_field : field.name = some name := by
    obtain ⟨_, same, name_same⟩ := settles.named
    rw [(List.cons.inj same).1, name_same, named]
  have places : ∀ name, Task.Alike (.node .definition site (.object body))
      (.node .definition (.named (some name)) (.object body)) :=
    fun _ => .node fun impossible => by cases impossible
  have expands : ∀ name, definitions.given? name = some (.object body) →
      ∃ expanded, Expands definitions answer name expanded ∧ expanded.bare = field.bare := by
    intro name given
    obtain ⟨fields, settles', agree⟩ := settles.alike (places name) fun target among _ =>
      below target (source.leads among)
    obtain ⟨expanded, rfl, bare⟩ := Task.single_of_agree agree
    exact ⟨expanded, expands_iff.mpr ⟨body, given, settles'⟩, bare⟩
  cases source with
  | own given =>
    obtain ⟨expanded, expands, bare⟩ := expands name given
    exact ⟨expanded, expands, Field.erase_eq_of_bare (expands.named.trans name_field.symm) bare⟩
  | @behind members target _ _ given reference refers stands =>
    obtain ⟨expanded, expands, bare⟩ := expands target stands
    have shape := Shape.ofNode_alias reference (unmixed.untyped given reference) (.named (some name))
    refine ⟨expanded.rename (some name), expands_iff.mpr ⟨members, given, .followed shape refers expands⟩, ?_⟩
    exact Field.erase_eq_of_bare ((Field.name_rename _ _).trans name_field.symm) ((Field.bare_rename _ _).trans bare)

end

/-- Every acyclic definition of a document that resolves is in the schema. Up to requirements its field is the
expansion of the definition, whatever other definitions there are, and in whatever order. -/
theorem Document.definition_expands {σ : Type} {document : Document} {selector : Selector σ} {start : σ} {bound : Nat}
    {schema : Schema} {answer : Int → Except ChoiceError Int} (wellFormed : document.WellFormed)
    (answers : selector.Answers answer) (unmixed : document.declarations.Unmixed)
    (resolved : (document.resolveWithin bound selector start).result = .ok schema) {name : String}
    (declared : name ∈ document.declarations.map Prod.fst) (acyclic : Acyclic document.declarations name) :
    ∃ field expanded, Entries.get? schema.definitions name = some field ∧
      Expands document.declarations answer name expanded ∧ field.erase = expanded.erase ∧
      ∀ other, Expands document.declarations answer name other → other = expanded := by
  obtain ⟨root, middle, properties, after, rooted, passes, rfl⟩ := passes_of_resolved resolved
  have distinct := distinct_declarations wellFormed
  rw [declarations_of_root rooted] at *
  obtain ⟨passed, settled, known, _⟩ := passes.settled answers unmixed distinct
  obtain ⟨field, found⟩ := known name declared acyclic
  obtain ⟨expanded, expands, same⟩ := settled.expands unmixed acyclic found
  exact ⟨field, expanded, found, expands, same.symm, fun other expands' => expands.unique expands'⟩

/-- A definition that refers to itself stands before an acyclic one, which refers to one that comes later. -/
def Document.besideLoop : Document :=
  .value (.object [("definitions", .object [
    ("Loop", .object [("type", .string "object"), ("properties", .object [
      ("next", .object [("$ref", .string "#/definitions/Loop")]),
      ("outer", .object [("$ref", .string "#/definitions/Outer")])])]),
    ("Outer", .object [("type", .string "object"), ("properties", .object [
      ("tags", .object [("$ref", .string "#/definitions/Tags")])])]),
    ("Tags", .object [("type", .string "array"), ("items", .object [("type", .string "integer")])])])])

theorem Document.besideLoop_expands :
    ∃ schema field expanded, (besideLoop.resolveWithin 10 Selector.first ()).result = .ok schema ∧
      Entries.get? schema.definitions "Outer" = some field ∧
      Expands besideLoop.declarations (fun _ => .ok 0) "Outer" expanded ∧ field.erase = expanded.erase := by
  obtain ⟨schema, resolved⟩ : ∃ schema, (besideLoop.resolveWithin 10 Selector.first ()).result = .ok schema :=
    exists_of_toBool (by decide +kernel)
  have wellFormed : besideLoop.WellFormed := by
    unfold Document.WellFormed besideLoop
    decide
  have unmixed : besideLoop.declarations.Unmixed := by
    unfold Members.Unmixed
    decide
  have acyclic : Acyclic besideLoop.declarations "Outer" :=
    @Acyclic.of_ranks _ _ [("Outer", 1), ("Tags", 0)] (by decide) (by decide)
  obtain ⟨field, expanded, stored, expands, same, _⟩ :=
    definition_expands wellFormed (fun _ _ => rfl) unmixed resolved (by decide) acyclic
  exact ⟨schema, field, expanded, resolved, stored, expands, same⟩

end FieldTree
