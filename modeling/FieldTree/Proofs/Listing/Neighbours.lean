import FieldTree.Proofs.Resolution.RootProperties
import FieldTree.Proofs.Resolution.Swayed

/-! What one property of the root does to the others. The names that it requires join the list of all required names,
each behind its own name and a dot, and a property may have such a name. Nothing else of it reaches another property. -/

namespace FieldTree

variable {σ τ : Type}

/-- The roots differ at most in the node of one property. -/
structure Members.Vary (property : String) (root root' : Members) : Prop where
  properties : AlikeBut property (Json.members (root.given? "properties")) (Json.members (root'.given? "properties"))
  others : ∀ key, key ≠ "properties" → root'.given? key = root.given? key

namespace Members.Vary
open Document

variable {property : String} {root root' : Members} (vary : root.Vary property root')
include vary

theorem declarations_eq : root'.declarations = root.declarations := by
  simp only [Members.declarations, vary.others "definitions" (by decide)]

theorem context_eq (selector : Selector σ) : Document.context root' selector = Document.context root selector := by
  rw [Document.context, vary.declarations_eq]
  rfl

theorem type?_eq : Node.type? root' = Node.type? root := by
  simp only [Node.type?, Node.typeName?, vary.others "type" (by decide)]

end Members.Vary

/-- What a property of the root and its fellow come to: fields of one name, which are one field at places that may
differ in whether the name is required, unless it is the name that the roots vary in. -/
def Document.Fellows (property : String) (root root' : Members) (field field' : Field) : Prop :=
  field'.name = field.name ∧ (field.name ≠ some property →
    Field.Swayed (some (field.name.any (requiredPaths root).contains)) (some (field.name.any (requiredPaths root').contains))
      field field')

theorem Yields.fellows {context : Context σ} {root root' : Members} {property : String} {entries entries' : Members}
    (alike : entries.AlikeBut property entries') (typed : Node.type? root' = Node.type? root)
    (choiceless : ∀ entry ∈ entries, entry.2.Choiceless) (choiceless' : ∀ entry ∈ entries', entry.2.Choiceless)
    {before after after' : State σ} {fields fields' : List Field}
    (yields : Yields context (.all .property (entries.map (Document.placed root))) before fields after)
    (yields' : Yields context (.all .property (entries'.map (Document.placed root'))) before fields' after') :
    List.Forall₂ (Document.Fellows property root root') fields fields' := by
  unfold Members.AlikeBut at alike
  induction alike generalizing before fields fields' with
  | nil =>
    cases yields
    cases yields'
    exact .nil
  | @cons entry entry' _ _ same _ ih =>
    obtain ⟨key, node⟩ := entry
    obtain ⟨key', node'⟩ := entry'
    obtain ⟨rfl, same⟩ := same
    obtain ⟨first, rest⟩ := List.forall_mem_cons.mp choiceless
    obtain ⟨first', rest'⟩ := List.forall_mem_cons.mp choiceless'
    cases yields with
    | allCons here later =>
      cases yields' with
      | allCons here' later' =>
        obtain ⟨field, rfl⟩ := here.single rfl
        obtain ⟨field', rfl⟩ := here'.single rfl
        obtain rfl := here.still rfl first
        obtain rfl := here'.still rfl first'
        have named : field.name = some key' := here.named field List.mem_cons_self
        have named' : field'.name = some key' := here'.named field' List.mem_cons_self
        refine .cons ⟨named'.trans named.symm, fun other => ?_⟩ (ih rest rest' later later')
        rw [named] at other ⊢
        obtain rfl := same fun here => other (congrArg some here)
        simp only [Document.placed, typed] at here here'
        exact here.swayed first here'

namespace Document

variable {document document' : Document} {root root' : Members}

/-- Where documents without alternatives vary in one property, another property resolves and is listed alike in both
just if both require its name or neither does, or if it shows nowhere; and only a name behind that of the one property
can be required in one of them alone. -/
theorem neighbours_same_iff (rooted : document.root = .ok root) (rooted' : document'.root = .ok root')
    {property : String} (vary : root.Vary property root') (choiceless : document.Choiceless)
    (choiceless' : document'.Choiceless) {bound bound' : Nat} {selector : Selector σ} {start : σ} {selector' : Selector τ}
    {start' : τ} {schema schema' : Schema}
    (resolved : (document.resolveWithin bound selector start).result = .ok schema)
    (resolved' : (document'.resolveWithin bound' selector' start').result = .ok schema')
    {leaves leaves' : List Leaf} (listed : Listing.ofSchema schema = .ok leaves)
    (listed' : Listing.ofSchema schema' = .ok leaves') :
    leaves = schema.properties.flatMap (Field.leavesIn schema.requiredNames) ∧
    leaves' = schema'.properties.flatMap (Field.leavesIn schema'.requiredNames) ∧
    (∀ path, (∀ name, path ≠ property ++ "." ++ name) →
      schema'.requiredNames.contains path = schema.requiredNames.contains path) ∧
    List.Forall₂ (fun field field' => field'.name = field.name ∧ (field.name ≠ some property →
      ((field' = field ∧ field'.leavesIn schema'.requiredNames = field.leavesIn schema.requiredNames) ↔
        field.name.any schema'.requiredNames.contains = field.name.any schema.requiredNames.contains ∨
          (field'.required = field.required ∧ (field.required = some true ∨ field.hasFields = true)))))
      schema.properties schema'.properties := by
  refine ⟨Listing.ofFields_ok listed, Listing.ofFields_ok listed', ?_⟩
  -- No selector is asked, so one may stand for both; then the pass over the definitions is the same.
  rw [result_of_choiceless choiceless bound selector start Selector.first ()] at resolved
  rw [result_of_choiceless choiceless' bound' selector' start' Selector.first ()] at resolved'
  obtain ⟨_, middle, properties, after, same, passes, rfl⟩ := passes_of_resolved resolved
  cases rooted.symm.trans same
  obtain ⟨_, middle', properties', after', same', passes', rfl⟩ := passes_of_resolved resolved'
  cases rooted'.symm.trans same'
  refine ⟨fun path apart => vary.properties.requiredPaths_contains (vary.others "required" (by decide)) apart, ?_⟩
  have defined := passes'.definitions
  have walked := passes'.properties
  rw [vary.context_eq] at defined walked
  rw [vary.declarations_eq] at defined
  obtain rfl := passes.definitions.unique defined
  have fellows := passes.properties.fellows vary.properties vary.type?_eq
    (fun entry among => (choiceless _ rooted).member among) (fun entry among => (choiceless' _ rooted').member among) walked
  refine fellows.imp fun field field' fellow => ⟨fellow.1, fun other => ?_⟩
  exact (fellow.2 other).same_iff rfl rfl

/-- An owner who requires some names, and an array of some name beside. -/
def owned (names : List Json) (beside : String) : Members := [("properties", .object [
  ("owner", .object [("type", .string "object"),
    ("properties", .object [("name", .object [("type", .string "string")])]), ("required", .array names)]),
  (beside, .object [("type", .string "array"), ("items", .object [("type", .string "string")])])])]

theorem owned_vary (names names' : List Json) (beside : String) :
    (owned names beside).Vary "owner" (owned names' beside) := by
  constructor
  · exact .cons ⟨rfl, fun different => absurd rfl different⟩ (.cons ⟨rfl, fun _ => rfl⟩ .nil)
  · intro key other
    simp [owned, Members.given?, Entries.get?, Ne.symm other]

/-- Whether the owner requires a name decides nothing about the tags. -/
theorem neighbours_same_iff_tags : ∃ schema schema' owner owner' tags tags',
    ((Document.value (.object (owned [.string "name"] "tags"))).resolveWithin 20 Selector.first ()).result = .ok schema ∧
    ((Document.value (.object (owned [] "tags"))).resolveWithin 20 Selector.first ()).result = .ok schema' ∧
    schema.properties = [owner, tags] ∧ schema'.properties = [owner', tags'] ∧ tags' = tags ∧
    tags'.leavesIn schema'.requiredNames = tags.leavesIn schema.requiredNames := by
  have resolved : ((Document.value (.object (owned [.string "name"] "tags"))).resolveWithin 20 Selector.first ()).result =
    .ok _ := rfl
  have resolved' : ((Document.value (.object (owned [] "tags"))).resolveWithin 20 Selector.first ()).result = .ok _ := rfl
  have choiceless : (Document.value (.object (owned [.string "name"] "tags"))).Choiceless :=
    choiceless_of_root rfl (by unfold Json.Choiceless; decide)
  have choiceless' : (Document.value (.object (owned [] "tags"))).Choiceless :=
    choiceless_of_root rfl (by unfold Json.Choiceless; decide)
  obtain ⟨_, _, _, each⟩ := neighbours_same_iff rfl rfl (owned_vary _ _ _) choiceless choiceless' resolved resolved' rfl rfl
  obtain _ | ⟨_, _ | ⟨⟨_, same⟩, _⟩⟩ := each
  obtain ⟨fields, leaves⟩ := (same (by decide)).mpr (.inl rfl)
  exact ⟨_, _, _, _, _, _, resolved, resolved', rfl, rfl, fields, leaves⟩

/-- A property with the name of a path is required where the path is, though the root requires nothing. -/
theorem path_required : (owned [.string "name"] "owner.name").Vary "owner" (owned [] "owner.name") ∧
    (Document.value (.object (owned [.string "name"] "owner.name"))).Choiceless ∧
    (Document.value (.object (owned [] "owner.name"))).Choiceless ∧
    ∃ schema schema' owner owner' names names',
    ((Document.value (.object (owned [.string "name"] "owner.name"))).resolveWithin 20 Selector.first ()).result =
      .ok schema ∧
    ((Document.value (.object (owned [] "owner.name"))).resolveWithin 20 Selector.first ()).result = .ok schema' ∧
    schema.properties = [owner, names] ∧ schema'.properties = [owner', names'] ∧
    names.name = some "owner.name" ∧ names'.name = some "owner.name" ∧
    names.required = some true ∧ names'.required = some false ∧
    Listing.ofSchema schema =
      .ok [⟨"owner.name", "string", true⟩, ⟨"owner.name[]", "string-array", true⟩] ∧
    Listing.ofSchema schema' =
      .ok [⟨"owner.name", "string", false⟩, ⟨"owner.name[]", "string-array", false⟩] :=
  ⟨owned_vary _ _ _, choiceless_of_root rfl (by unfold Json.Choiceless; decide),
    choiceless_of_root rfl (by unfold Json.Choiceless; decide),
    _, _, _, _, _, _, rfl, rfl, rfl, rfl, rfl, rfl, rfl, rfl, rfl, rfl⟩

end Document
end FieldTree
