import FieldTree.Proofs.Resolution.FirstPlaces
import FieldTree.Proofs.Resolution.Places
import FieldTree.Proofs.Resolution.Progress

/-! The order of the definitions. In an acyclic document without alternatives, in which no definition is a reference,
the order decides only which place asks for a definition first, and by that which flags the field of the definition
has. -/

namespace FieldTree

structure Document.Orderly (document : Document) : Prop where
  wellFormed : document.WellFormed
  choiceless : document.Choiceless
  acyclic : ∀ entry ∈ document.declarations, Acyclic document.declarations entry.1
  plain : ∀ entry ∈ document.declarations, entry.2.isPlain = true

/-- The other root gives the same, but for the order of the definitions. -/
structure Members.Reordered (root root' : Members) : Prop where
  declarations : root.declarations.Perm root'.declarations
  others : ∀ key, key ≠ "definitions" → root'.given? key = root.given? key

def Document.Reordered (document document' : Document) : Prop :=
  ∃ root root', document.root = .ok root ∧ document'.root = .ok root' ∧ root.Reordered root'

namespace Schema

/-- What is told beside the properties and the definitions. -/
structure SameHead (schema schema' : Schema) : Prop where
  id : schema'.id = schema.id
  name : schema'.name = schema.name
  type : schema'.type = schema.type
  requiredNames : schema'.requiredNames = schema.requiredNames

/-- The same, but for the order in which the definitions come. -/
structure Same (schema schema' : Schema) : Prop where
  head : schema.SameHead schema'
  properties : schema'.properties = schema.properties
  definitions : ∀ name, Entries.get? schema'.definitions name = Entries.get? schema.definitions name

/-- The same, but for what is said about fields being required. -/
structure Alike (schema schema' : Schema) : Prop where
  head : schema.SameHead schema'
  properties : Field.eraseAll schema'.properties = Field.eraseAll schema.properties
  definitions : ∀ name,
    (Entries.get? schema'.definitions name).map Field.erase = (Entries.get? schema.definitions name).map Field.erase

end Schema

/-- Every definition is first asked for, in both documents, from places that decide alike on its flags. -/
def Document.AskedAlike (document document' : Document) : Prop :=
  ∀ entry ∈ document.declarations,
    (document'.firstPlaces.get? entry.1).map (entry.2.flagsAt entry.2.depth) =
      (document.firstPlaces.get? entry.1).map (entry.2.flagsAt entry.2.depth)

instance (document document' : Document) : Decidable (document.AskedAlike document') :=
  inferInstanceAs (Decidable (∀ entry ∈ document.declarations, _ = _))

namespace Members.Reordered

variable {root root' : Members} (reordered : root.Reordered root')
include reordered

theorem symm : root'.Reordered root :=
  ⟨reordered.declarations.symm, fun key other => (reordered.others key other).symm⟩

theorem given?_eq (distinct : root.declarations.Distinct) (name : String) :
    root'.declarations.given? name = root.declarations.given? name := by
  simp only [given?, Entries.get?_of_perm distinct reordered.declarations]

theorem requiredPaths_eq : Document.requiredPaths root' = Document.requiredPaths root := by
  simp only [Document.requiredPaths, reordered.others "required" (by decide), reordered.others "properties" (by decide)]

theorem outer_eq : Document.outer root' = Document.outer root := by
  have typed : Node.type? root' = Node.type? root := by
    simp only [Node.type?, Node.typeName?, reordered.others "type" (by decide)]
  simp only [Document.outer, reordered.requiredPaths_eq, reordered.others "properties" (by decide), typed]

theorem sameHead (properties properties' : List Field) (cache cache' : Entries Field) :
    (Document.assembled root properties cache).SameHead (Document.assembled root' properties' cache') where
  id := by simp only [Document.assembled, reordered.others "$id" (by decide)]
  name := by simp only [Document.assembled, reordered.others "$schema" (by decide)]
  type := by simp only [Document.assembled, reordered.others "type" (by decide)]
  requiredNames := reordered.requiredPaths_eq

end Members.Reordered

/-- The answer of the selector that takes the first branch. -/
def Selector.always (_ : Int) : Except ChoiceError Int := .ok 0

theorem Selector.first_answers : Selector.first.Answers Selector.always := fun _ _ => rfl

/-- What the resolution of an orderly document leaves behind. -/
structure Members.Leaves (root : Members) (places : Entries Site) (properties : List Field) (cache : Entries Field) :
    Prop where
  acyclic : ∀ name, Acyclic root.declarations name
  placed : cache.Placed root.declarations Selector.always places
  known : ∀ entry ∈ root.declarations, ∃ field, cache.get? entry.1 = some field
  properties : Settles Selector.always cache.knows (.all .property (Document.outer root)) properties
  expands : ∀ name field, cache.get? name = some field →
    ∃ expanded, Expands root.declarations Selector.always name expanded ∧ expanded.erase = field.erase

namespace Document

variable {document document' : Document}

theorem Orderly.resolved {root : Members} {schema : Schema} (orderly : document.Orderly)
    (rooted : document.root = .ok root) {bound : Nat}
    (resolved : (document.resolveWithin bound Selector.first ()).result = .ok schema) :
    ∃ properties cache, schema = assembled root properties cache ∧
      root.Leaves document.firstPlaces properties cache := by
  obtain ⟨wellFormed, choiceless, acyclic, plain⟩ := orderly
  obtain ⟨_, middle, properties, after, rooted', passes, same⟩ := passes_of_resolved resolved
  obtain rfl := Except.ok.inj (rooted.symm.trans rooted')
  have distinct := distinct_declarations wellFormed
  rw [declarations_of_root rooted] at acyclic plain distinct
  have unmixed := Members.unmixed_of_plain plain
  have everywhere := Acyclic.of_declared acyclic
  obtain ⟨passed, settled, known, settles⟩ := passes.settled Selector.first_answers unmixed distinct
  have placed := passes.placed Selector.first_answers rooted distinct (choiceless root rooted) everywhere plain
  refine ⟨properties, after.cache, same, everywhere, placed, fun entry declared => ?_, settles, ?_⟩
  · exact known entry.1 (List.mem_map_of_mem declared) (everywhere entry.1)
  · exact fun name field found => settled.expands unmixed (everywhere name) found

end Document

namespace Members.Leaves

variable {root root' : Members} {places places' : Entries Site} {properties properties' : List Field}
  {cache cache' : Entries Field} (leaves : root.Leaves places properties cache)
  (leaves' : root'.Leaves places' properties' cache')
include leaves leaves'

theorem alike (reordered : root.Reordered root')
    (same : ∀ name, root'.declarations.given? name = root.declarations.given? name)
    {name : String} {field : Field} (found : cache.get? name = some field) :
    ∃ field', cache'.get? name = some field' ∧ field'.erase = field.erase := by
  obtain ⟨expanded, expands, erased⟩ := leaves.expands name field found
  obtain ⟨body, given, _⟩ := expands_iff.mp expands
  obtain ⟨field', found'⟩ := leaves'.known _ (reordered.declarations.mem_iff.mp (Members.mem_of_given? given))
  obtain ⟨expanded', expands', erased'⟩ := leaves'.expands name field' found'
  refine ⟨field', found', ?_⟩
  rw [← erased', ← erased, (expands.of_same same).unique expands']

theorem alike_definitions (reordered : root.Reordered root')
    (same : ∀ name, root'.declarations.given? name = root.declarations.given? name)
    (name : String) : (cache'.get? name).map Field.erase = (cache.get? name).map Field.erase := by
  cases found : cache.get? name with
  | some field =>
    obtain ⟨field', found', erased⟩ := leaves.alike leaves' reordered same found
    rw [found', Option.map_some, erased, Option.map_some]
  | none =>
    cases found' : cache'.get? name with
    | none => rfl
    | some field' =>
      obtain ⟨field, impossible, _⟩ := leaves'.alike leaves reordered.symm (fun name => (same name).symm) found'
      rw [found] at impossible
      cases impossible

/-- Where the first places decide alike, the fields are the same. The induction is along the references. -/
theorem same_of_asked (reordered : root.Reordered root')
    (same : ∀ name, root'.declarations.given? name = root.declarations.given? name)
    (asked : ∀ entry ∈ root.declarations, (places'.get? entry.1).map (entry.2.flagsAt entry.2.depth) =
      (places.get? entry.1).map (entry.2.flagsAt entry.2.depth)) (name : String) :
    cache'.get? name = cache.get? name := by
  refine @Acyclic.induction _ _ (fun name => cache'.get? name = cache.get? name) (fun name _ below => ?_)
    (leaves.acyclic name)
  cases found : cache.get? name with
  | none =>
    have none := leaves.alike_definitions leaves' reordered same name
    rw [found] at none
    exact Option.map_eq_none_iff.mp none
  | some field =>
    obtain ⟨field', found', _⟩ := leaves.alike leaves' reordered same found
    obtain ⟨place, body, there, named, given, settles⟩ := leaves.placed.settled name field found
    obtain ⟨place', body', there', named', given', settles'⟩ := leaves'.placed.settled name field' found'
    rw [same, given] at given'
    cases given'
    have flags := asked _ (Members.mem_of_given? given)
    rw [there, there'] at flags
    rw [found']
    apply congrArg
    apply settles'.eq_of_flagsAt settles (named'.trans named.symm) _ (Nat.le_refl _) (Option.some.inj flags)
    intro target among known' known stored' stored
    have agrees : cache'.get? target = cache.get? target := below target ⟨_, given, among⟩
    exact Option.some.inj (stored'.symm.trans (agrees.trans stored))

/-- Where the fields are the same, the first places decided alike. -/
theorem asked_of_same (same : ∀ name, root'.declarations.given? name = root.declarations.given? name)
    (distinct : root.declarations.Distinct) (fields : ∀ name, cache'.get? name = cache.get? name)
    {entry : String × Json} (declared : entry ∈ root.declarations) :
    (places'.get? entry.1).map (entry.2.flagsAt entry.2.depth) =
      (places.get? entry.1).map (entry.2.flagsAt entry.2.depth) := by
  obtain ⟨field, found⟩ := leaves.known entry declared
  obtain ⟨place, body, there, named, given, settles⟩ := leaves.placed.settled _ field found
  obtain ⟨place', body', there', named', given', settles'⟩ :=
    leaves'.placed.settled _ field ((fields entry.1).trans found)
  rw [same, given] at given'
  cases given'
  have body_eq : entry.2 = .object body :=
    Option.some.inj ((distinct.get?_of_mem declared).symm.trans (Members.get?_of_given? given))
  rw [there, there', body_eq, Option.map_some, Option.map_some]
  have lengths := Json.length_flagsAt (Json.object body).depth (.object body) (named'.trans named.symm)
  have decided' := settles'.flagsAt_prefix (Json.object body).depth
  have decided := settles.flagsAt_prefix (Json.object body).depth
  exact congrArg some ((List.prefix_of_prefix_length_le decided' decided (Nat.le_of_eq lengths)).eq_of_length lengths)

theorem alike_properties (reordered : root.Reordered root')
    (same : ∀ name, root'.declarations.given? name = root.declarations.given? name) :
    Field.eraseAll properties' = Field.eraseAll properties := by
  have settles' := leaves'.properties
  rw [reordered.outer_eq] at settles'
  obtain ⟨fields, settles, agree⟩ := @Settles.alike _ _ cache'.knows _ _ _ leaves.properties
    (.all (List.forall₂_same.mpr fun _ _ => ⟨rfl, rfl⟩)) fun target _ field found =>
      leaves.alike leaves' reordered same found
  rw [settles'.unique settles fun target _ field other there here => Option.some.inj (there.symm.trans here)]
  exact agree

end Members.Leaves

namespace Document

variable {document document' : Document}

theorem Orderly.resolves {root root' : Members} {properties : List Field} {cache : Entries Field}
    {places : Entries Site} (leaves : root.Leaves places properties cache) (reordered : root.Reordered root')
    (same : ∀ name, root'.declarations.given? name = root.declarations.given? name) (orderly' : document'.Orderly)
    (rooted' : document'.root = .ok root') :
    ∃ schema, (document'.resolveWithin document'.limit Selector.first ()).result = .ok schema := by
  obtain ⟨wellFormed, _, acyclic, plain⟩ := orderly'
  have distinct := distinct_declarations wellFormed
  rw [declarations_of_root rooted'] at acyclic plain distinct
  have expands : ∀ {name field}, cache.get? name = some field →
      ∃ expanded, Expands root'.declarations Selector.always name expanded ∧ expanded.erase = field.erase := by
    intro name field found
    obtain ⟨expanded, expands, erased⟩ := leaves.expands name field found
    exact ⟨expanded, expands.of_same same, erased⟩
  have declared : ∀ entry ∈ root'.declarations, ∃ field, Expands root'.declarations Selector.always entry.1 field := by
    intro entry among
    obtain ⟨field, found⟩ := leaves.known entry (reordered.declarations.mem_iff.mpr among)
    obtain ⟨expanded, expands, _⟩ := expands found
    exact ⟨expanded, expands⟩
  obtain ⟨fields, settles, _⟩ := @Settles.alike _ _ (Expands root'.declarations Selector.always) _ _ _
    leaves.properties (.all (List.forall₂_same.mpr fun _ _ => ⟨rfl, rfl⟩)) fun target _ field found => expands found
  rw [← reordered.outer_eq] at settles
  obtain ⟨middle, properties', after, passes⟩ :=
    passes_of_expands Selector.first_answers () distinct plain acyclic declared settles
  obtain ⟨enough, resolved⟩ := passes.resolved rooted'
  have room := resolveWithin_of_limit_le Selector.first () (Nat.le_refl _) (Nat.le_max_right enough document'.limit)
  exact ⟨_, (congrArg Outcome.result room.1).trans (resolved _ (Nat.le_max_left _ _))⟩

theorem Orderly.result_eq {σ : Type} (orderly : document.Orderly) {bound : Nat} (room : document.limit ≤ bound)
    (selector : Selector σ) (start : σ) : (document.resolveWithin bound selector start).result =
      (document.resolveWithin document.limit Selector.first ()).result :=
  (result_of_choiceless orderly.choiceless bound selector start Selector.first ()).trans
    (congrArg Outcome.result (resolveWithin_of_limit_le Selector.first () room (Nat.le_refl _)).1)

/-- Of two orders of the definitions both resolve or neither does. Both schemas say the same but for what is required,
and that as well exactly if the places that ask first for the definitions decide alike. -/
theorem reordered_result {σ τ : Type} (orderly : document.Orderly) (orderly' : document'.Orderly)
    (reordered : document.Reordered document') {bound bound' : Nat} (room : document.limit ≤ bound)
    (room' : document'.limit ≤ bound') (selector : Selector σ) (start : σ) (selector' : Selector τ) (start' : τ) :
    match (document.resolveWithin bound selector start).result,
      (document'.resolveWithin bound' selector' start').result with
    | .ok schema, .ok schema' => schema.Alike schema' ∧ (schema.Same schema' ↔ document.AskedAlike document')
    | .error _, .error _ => True
    | _, _ => False := by
  obtain ⟨root, root', rooted, rooted', reordered⟩ := reordered
  have distinct := distinct_declarations orderly.wellFormed
  rw [declarations_of_root rooted] at distinct
  have same := reordered.given?_eq distinct
  rw [orderly.result_eq room, orderly'.result_eq room']
  cases resolved : (document.resolveWithin document.limit Selector.first ()).result with
  | ok schema =>
    obtain ⟨properties, cache, rfl, leaves⟩ := orderly.resolved rooted resolved
    obtain ⟨schema', resolved'⟩ := Orderly.resolves leaves reordered same orderly' rooted'
    obtain ⟨properties', cache', rfl, leaves'⟩ := orderly'.resolved rooted' resolved'
    rw [resolved']
    have head := reordered.sameHead properties properties' cache cache'
    refine ⟨⟨head, leaves.alike_properties leaves' reordered same, leaves.alike_definitions leaves' reordered same⟩, ?_⟩
    have asked : document.AskedAlike document' ↔ ∀ entry ∈ root.declarations,
        (document'.firstPlaces.get? entry.1).map (entry.2.flagsAt entry.2.depth) =
          (document.firstPlaces.get? entry.1).map (entry.2.flagsAt entry.2.depth) := by
      rw [AskedAlike, declarations_of_root rooted]
    rw [asked]
    constructor
    · intro both entry declared
      exact leaves.asked_of_same leaves' same distinct both.definitions declared
    · intro asked
      have definitions := leaves.same_of_asked leaves' reordered same asked
      refine ⟨head, ?_, definitions⟩
      have settles' := leaves'.properties
      rw [reordered.outer_eq] at settles'
      apply settles'.unique leaves.properties
      intro target _ field other there here
      exact Option.some.inj (there.symm.trans ((definitions target).trans here))
  | error failure =>
    cases resolved' : (document'.resolveWithin document'.limit Selector.first ()).result with
    | ok schema' =>
      obtain ⟨properties', cache', rfl, leaves'⟩ := orderly'.resolved rooted' resolved'
      obtain ⟨schema, impossible⟩ := Orderly.resolves leaves' reordered.symm
        (fun name => (same name).symm) orderly rooted
      rw [resolved] at impossible
      cases impossible
    | error => trivial

theorem Orderly.of_ranks {members : Members} {ranks : Entries Nat} (distinct : (Json.object members).Distinct)
    (choiceless : (Json.object members).Choiceless)
    (ranked : ∀ entry ∈ members.declarations, (ranks.get? entry.1).isSome)
    (down : ∀ entry ∈ ranks, ∀ target ∈ members.declarations.targets entry.1, (ranks.get? target).any (· < entry.2))
    (plain : ∀ entry ∈ members.declarations, entry.2.isPlain = true) : (Document.value (.object members)).Orderly where
  wellFormed := distinct
  choiceless := Document.choiceless_of_root rfl choiceless
  acyclic := fun entry among => .of_ranks (ranked entry among) down
  plain := plain

/-- A list of numbers, and an object that has one of these. -/
def tags : String × Json :=
  ("Tags", .object [("type", .string "array"), ("items", .object [("type", .string "integer")])])

def tagged : String × Json :=
  ("Tagged", .object [("type", .string "object"),
    ("properties", .object [("tags", .object [("$ref", .string "#/definitions/Tags")])])])

def tagsFirst : Document := .value (.object [("definitions", .object [tags, tagged])])

def tagsLast : Document := .value (.object [("definitions", .object [tagged, tags])])

theorem orderly_tagsFirst : tagsFirst.Orderly := by
  refine @Orderly.of_ranks _ [("Tags", 0), ("Tagged", 1)] (by decide) ?_ (by decide) (by decide) (by decide)
  unfold Json.Choiceless
  decide

theorem orderly_tagsLast : tagsLast.Orderly := by
  refine @Orderly.of_ranks _ [("Tags", 0), ("Tagged", 1)] (by decide) ?_ (by decide) (by decide) (by decide)
  unfold Json.Choiceless
  decide

theorem reordered_tags : tagsFirst.Reordered tagsLast := by
  refine ⟨_, _, rfl, rfl, .swap tagged tags [], fun key other => ?_⟩
  simp only [Members.given?, Entries.get?, other.symm, ite_false]

theorem reordered_result_tags : ∃ schema schema', (tagsFirst.resolveWithin 60 Selector.first ()).result = .ok schema ∧
    (tagsLast.resolveWithin 80 Selector.last ()).result = .ok schema' ∧ schema.Alike schema' ∧
    (schema.Same schema' ↔ tagsFirst.AskedAlike tagsLast) := by
  obtain ⟨schema, resolved⟩ : ∃ schema, (tagsFirst.resolveWithin 60 Selector.first ()).result = .ok schema :=
    exists_of_toBool (by decide +kernel)
  obtain ⟨schema', resolved'⟩ : ∃ schema, (tagsLast.resolveWithin 80 Selector.last ()).result = .ok schema :=
    exists_of_toBool (by decide +kernel)
  have both := @reordered_result _ _ _ _ orderly_tagsFirst orderly_tagsLast reordered_tags 60 80 (by decide) (by decide)
    Selector.first () Selector.last ()
  rw [resolved, resolved'] at both
  exact ⟨schema, schema', resolved, resolved', both⟩

/-- Resolved on its own the list is not required; resolved for the object that has it, it is. -/
theorem order_matters : tagsFirst.Orderly ∧ tagsLast.Orderly ∧ tagsFirst.Reordered tagsLast ∧
    ∃ schema schema', (tagsFirst.resolveWithin 60 Selector.first ()).result = .ok schema ∧
      (tagsLast.resolveWithin 60 Selector.first ()).result = .ok schema' ∧
      (Entries.get? schema.definitions "Tags").map Field.required = some (some false) ∧
      (Entries.get? schema'.definitions "Tags").map Field.required = some (some true) ∧
      ¬schema.Same schema' ∧ ¬tagsFirst.AskedAlike tagsLast := by
  refine ⟨orderly_tagsFirst, orderly_tagsLast, reordered_tags, _, _, rfl, rfl, rfl, rfl, fun same => ?_, by decide⟩
  have flags := congrArg (Option.map Field.required) (same.definitions "Tags")
  cases flags

end Document
end FieldTree
