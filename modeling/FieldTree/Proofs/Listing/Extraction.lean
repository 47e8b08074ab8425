import FieldTree.Proofs.Resolution.Beside
import FieldTree.Proofs.Resolution.RootProperties
import FieldTree.Proofs.Resolution.Sides

/-! A subschema that stands in the place of a property may as well stand among the definitions, with a reference in its
place. The listing is the same, and the properties differ in requirements that are not listed. -/

namespace FieldTree

variable {σ : Type}

/-- A reference to a definition. -/
def Json.referring (definition : String) : Json := .object [("$ref", .string ("#/definitions/" ++ definition))]

/-- The node of a property of the first root is a definition in the second, and the property refers to it. The node is
self-contained, and the definition has a name of its own to which nothing else refers. No property has a dot in its
name, so none is mistaken for one inside another. -/
structure Members.Extracts (root root' : Members) (property definition : String) (node : Json) : Prop where
  properties : ∃ earlier later, root.given? "properties" = some (.object (earlier ++ (property, node) :: later)) ∧
    root'.given? "properties" = some (.object (earlier ++ (property, .referring definition) :: later))
  definitions : ∃ earlier later, root.declarations = earlier ++ later ∧
    root'.declarations = earlier ++ (definition, node) :: later
  others : ∀ key, key ≠ "properties" → key ≠ "definitions" → root'.given? key = root.given? key
  contained : node.SelfContained
  new : ∀ entry ∈ root.declarations, entry.1 ≠ definition
  unreferenced : definition ∉ (Json.object root).references
  simple : '/' ∉ definition.toList
  undotted : ∀ entry ∈ Json.members (root.given? "properties"), '.' ∉ entry.1.toList

theorem Entries.get?_append_cons_ne {α : Type} (entries : Entries α) {key other : String} (value : α)
    (rest : Entries α) (different : other ≠ key) :
    Entries.get? (entries ++ (key, value) :: rest) other = Entries.get? (entries ++ rest) other := by
  induction entries with
  | nil => simp [get?, Ne.symm different]
  | cons entry others ih =>
    obtain ⟨k, old⟩ := entry
    simp only [List.cons_append, get?, ih]

theorem Node.lastSegment_definitions {definition : String} (simple : '/' ∉ definition.toList) :
    lastSegment ("#/definitions/" ++ definition) = definition := by
  have whole : ∀ c ∈ definition.toList.reverse, decide (c ≠ '/') = true := by
    intro c among
    simp only [ne_eq, decide_eq_true_eq]
    rintro rfl
    exact simple (List.mem_reverse.mp among)
  rw [lastSegment, String.toList_append, List.reverse_append, List.takeWhile_append_of_pos whole]
  simp

theorem Node.target_referring {definition : String} (simple : '/' ∉ definition.toList) :
    target [("$ref", .string ("#/definitions/" ++ definition))] = .ok definition := by
  have given : Members.given? [("$ref", Json.string ("#/definitions/" ++ definition))] "$ref" =
      some (.string ("#/definitions/" ++ definition)) := rfl
  simp [target, given, Json.textOf, Json.text, lastSegment_definitions simple]

theorem Walker.shown_atSite (site : Site) (field : Field) : (atSite site field).shown = field.shown := by
  unfold atSite
  split
  · rfl
  · exact Field.shown_withRequired _ _ field

/-- At the place of a reference the field says what it would say there of itself. -/
theorem Walker.marks_atSite {site site' : Site} {field : Field} (marks : site'.Marks field) (name : Option String) :
    site.Marks (atSite site (field.rename name)) := by
  cases field with
  | scalar => cases ‹Scalar› <;> exact marks
  | array => rfl
  | object => exact .inl rfl
  | map => rfl

/-- A property that refers to a definition is shown as the definition's field, and listed as required as a field of its
own would be. -/
theorem Yields.referring {context : Context σ} {site site' : Site} {state : State σ} {definition : String}
    {field field' : Field} {requiredNames : List String} (simple : '/' ∉ definition.toList)
    (known : state.cache.get? definition = some field') (marks : site.Marks field) (marks' : site'.Marks field')
    (shown : field'.shown = field.shown.rename site'.name) (named : field.name = site.name)
    (listed : site.required = some true → site.name.any requiredNames.contains) :
    ∃ taken, Yields context (.node .property site (.referring definition)) state [taken] state ∧
      taken.shown = field.shown ∧ Listing.isRequired taken requiredNames = Listing.isRequired field requiredNames := by
  have same : (Walker.atSite site (field'.rename site.name)).shown = field.shown := by
    rw [Walker.shown_atSite, Field.shown_rename, shown, Field.rename_rename, ← named, ← Field.name_shown,
      Field.rename_name]
  refine ⟨_, .declared rfl rfl (Node.target_referring simple) known rfl, same, ?_⟩
  exact Listing.isRequired_of_marks marks (Walker.marks_atSite marks' site.name) same named listed

namespace Members.Extracts

variable {root root' : Members} {property definition : String} {node : Json}
  (extracts : root.Extracts root' property definition node)
include extracts

theorem requiredPaths_contains {key : String} (undotted : '.' ∉ key.toList) :
    (Document.requiredPaths root').contains key = (Document.requiredPaths root).contains key := by
  obtain ⟨earlier, later, listed, listed'⟩ := extracts.properties
  have alike : Members.AlikeBut property (Json.members (root.given? "properties"))
      (Json.members (root'.given? "properties")) := by
    rw [listed, listed']
    exact .of_replaced earlier later node (.referring definition)
  apply alike.requiredPaths_contains (extracts.others "required" (by decide) (by decide))
  rintro name rfl
  simp [String.toList_append] at undotted

theorem placed_eq {entry : String × Json} (undotted : '.' ∉ entry.1.toList) :
    Document.placed root' entry = Document.placed root entry := by
  have typed : Node.type? root' = Node.type? root := by
    simp only [Node.type?, Node.typeName?, extracts.others "type" (by decide) (by decide)]
  simp only [Document.placed, extracts.requiredPaths_contains undotted, typed]

theorem beside (selector : Selector σ) :
    (Document.context root selector).Beside definition (Document.context root' selector) where
  selector := rfl
  given := by
    intro other different
    obtain ⟨earlier, later, declared, declared'⟩ := extracts.definitions
    simp only [Document.context, declared, declared', Members.given?]
    rw [Entries.get?_append_cons_ne earlier node later different]
  unreferenced := fun entry among refers => extracts.unreferenced (Members.references_of_mem among refers)

/-- The pass over the definitions makes the field of the new one too, and nothing else is changed by that. -/
theorem definitions_pass {selector : Selector σ} {start : σ} {middle before after : State σ} {site : Site}
    {field : Field}
    (defines : DefinesAll (Document.context root selector) root.declarations (State.fresh start) middle)
    (here : Yields (Document.context root selector) (.node .property site node) before [field] after) :
    ∃ field' middle', DefinesAll (Document.context root' selector) root'.declarations (State.fresh start) middle' ∧
      middle.Beside definition (some field') middle' ∧ site.Marks field ∧ (Site.named (some definition)).Marks field' ∧
      field'.shown = field.shown.rename (some definition) := by
  obtain ⟨earlier, later, declared, declared'⟩ := extracts.definitions
  have new := extracts.new
  have unreferenced := (extracts.beside selector).unreferenced
  simp only [Document.context] at unreferenced
  rw [declared] at defines new unreferenced
  obtain ⟨turn, first, second⟩ := defines.of_append
  obtain ⟨new_first, new_second⟩ := List.forall_mem_append.mp new
  obtain ⟨absent_first, absent_second⟩ := List.forall_mem_append.mp unreferenced
  have fresh : (State.fresh start).Beside definition none (State.fresh start) := ⟨rfl, rfl, fun _ _ => rfl, rfl⟩
  -- The new definition has its turn where the same is known as before; from there on its field is known beside that.
  obtain ⟨turn', first', beside⟩ := first.beside (extracts.beside selector) new_first absent_first fresh
  obtain ⟨field', walked, marks, marks', shown⟩ := here.definition_of_property extracts.contained
    (Document.context root' selector) (.named (some definition)) (turn'.logged (.resolving definition))
  have own : Defines (Document.context root' selector) definition node turn' _ :=
    .stored extracts.contained.isPlain walked beside.own
  obtain ⟨middle', second', beside⟩ :=
    second.beside (extracts.beside selector) new_second absent_second (beside.own_stored field' (.resolving definition))
  refine ⟨field', middle', ?_, beside, marks, marks', shown⟩
  rw [declared']
  exact first'.append (.cons own second')

/-- The roots give the same places to their properties, and all but one have the same nodes there. -/
theorem outers : ∃ earlier site later,
    Document.outer root = earlier ++ ⟨site, node, none⟩ :: later ∧
    Document.outer root' = earlier ++ ⟨site, .referring definition, none⟩ :: later ∧
    (∀ one ∈ earlier ++ later, definition ∉ one.node.references) ∧
    (site.required = some true → site.name.any (Document.requiredPaths root).contains = true) := by
  obtain ⟨earlier, later, listed, listed'⟩ := extracts.properties
  have undotted := extracts.undotted
  have absent : ∀ entry ∈ Json.members (root.given? "properties"), definition ∉ entry.2.references :=
    fun entry among refers => extracts.unreferenced (Members.references_of_mem among refers)
  have members : Json.members (root.given? "properties") = earlier ++ (property, node) :: later := by
    rw [listed, Json.members, Option.bind_some, Json.members?, Option.getD_some]
  have members' : Json.members (root'.given? "properties") = earlier ++ (property, .referring definition) :: later := by
    rw [listed', Json.members, Option.bind_some, Json.members?, Option.getD_some]
  rw [members, List.forall_mem_append, List.forall_mem_cons] at undotted absent
  obtain ⟨undotted_earlier, undotted_here, undotted_later⟩ := undotted
  obtain ⟨absent_earlier, _, absent_later⟩ := absent
  have here : Document.placed root' (property, .referring definition) =
      ⟨(Document.placed root (property, node)).site, .referring definition, none⟩ :=
    extracts.placed_eq undotted_here
  refine ⟨earlier.map (Document.placed root), (Document.placed root (property, node)).site,
    later.map (Document.placed root), ?_, ?_, ?_, ?_⟩
  · rw [Document.outer_eq, members, List.map_append, List.map_cons]
    rfl
  · rw [Document.outer_eq, members', List.map_append, List.map_cons, here,
      List.map_congr_left fun entry among => extracts.placed_eq (undotted_earlier entry among),
      List.map_congr_left fun entry among => extracts.placed_eq (undotted_later entry among)]
  · rw [← List.map_append, List.forall_mem_map]
    exact List.forall_mem_append.mpr ⟨absent_earlier, absent_later⟩
  · exact Option.some.inj

/-- Both passes over the second root. The fields of the properties are shown as those of the first are. -/
theorem passes {selector : Selector σ} {start : σ} {middle after : State σ} {properties : List Field}
    (passes : Document.Passes root selector start middle properties after) :
    ∃ middle' properties' after', Document.Passes root' selector start middle' properties' after' ∧
      Field.shownAll (Document.requiredPaths root) properties' =
        Field.shownAll (Document.requiredPaths root) properties := by
  obtain ⟨defines, walked⟩ := passes
  obtain ⟨earlier, site, later, outer, outer', absent, listed⟩ := extracts.outers
  obtain ⟨absent_earlier, absent_later⟩ := List.forall_mem_append.mp absent
  rw [outer] at walked
  obtain ⟨fields, others, turn, rfl, first, rest⟩ := walked.of_append
  cases rest with
  | @allCons _ _ _ _ others _ _ _ here second =>
    obtain ⟨field, rfl⟩ := here.single rfl
    obtain rfl := here.still rfl extracts.contained.choiceless
    obtain ⟨field', middle', defines', beside, marks, marks', shown⟩ := extracts.definitions_pass defines here
    have unmentioned : ∀ {inner : List Inner}, (∀ one ∈ inner, definition ∉ one.node.references) →
        definition ∉ (Task.all .property inner).references := by
      intro inner absent among
      obtain ⟨one, inside, refers⟩ := List.mem_flatMap.mp among
      exact absent one inside refers
    obtain ⟨turn', first', beside⟩ := first.beside (extracts.beside selector) (unmentioned absent_earlier) beside
    obtain ⟨taken, own, same, alike⟩ := @Yields.referring _ (Document.context root' selector) _ _ _ _ _ _ _
      extracts.simple beside.own marks marks' shown (here.named field List.mem_cons_self) listed
    obtain ⟨after', second', beside⟩ := second.beside (extracts.beside selector) (unmentioned absent_later) beside
    refine ⟨middle', fields ++ ([taken] ++ others), after', ⟨defines', ?_⟩, ?_⟩
    · rw [outer']
      exact first'.append (.allCons own second')
    · simp only [Field.shownAll_append, List.singleton_append, Field.shownAll, same, alike]

/-- To the names in the flat list of required ones the properties are the same. -/
theorem contains_names {selector : Selector σ} {start : σ} {middle after : State σ} {properties : List Field}
    (passes : Document.Passes root' selector start middle properties after) :
    ∀ field ∈ properties, field.name.any (Document.requiredPaths root').contains =
      field.name.any (Document.requiredPaths root).contains := by
  intro field among
  have names : properties.map Field.name = (Document.outer root').map fun one => one.site.name :=
    passes.properties.whole (.of_property rfl) (.of_property rfl)
  have inside : field.name ∈ properties.map Field.name := List.mem_map_of_mem among
  rw [names, Document.outer_eq, List.map_map] at inside
  obtain ⟨entry, listed, same⟩ := List.mem_map.mp inside
  obtain ⟨earlier, later, given, given'⟩ := extracts.properties
  have undotted := extracts.undotted
  rw [given] at undotted
  rw [given'] at listed
  have apart : '.' ∉ entry.1.toList := by
    rcases List.mem_append.mp listed with first | further
    · exact undotted entry (List.mem_append_left _ first)
    · rcases List.mem_cons.mp further with rfl | last
      · exact undotted (property, node) (List.mem_append_right _ List.mem_cons_self)
      · exact undotted entry (List.mem_append_right _ (List.mem_cons_of_mem _ last))
  rw [← same]
  exact extracts.requiredPaths_contains apart

end Members.Extracts

namespace Document

/-- Where a document resolves and one of its properties is self-contained, the document with that property among the
definitions resolves too, to the same listing. -/
theorem extracted_listing {document document' : Document} {root root' : Members} (rooted : document.root = .ok root)
    (rooted' : document'.root = .ok root') {property definition : String} {node : Json}
    (extracts : root.Extracts root' property definition node) {bound bound' : Nat} {selector : Selector σ} {start : σ}
    {schema : Schema} (resolved : (document.resolveWithin bound selector start).result = .ok schema)
    (enough : document'.limit ≤ bound') :
    ∃ schema', (document'.resolveWithin bound' selector start).result = .ok schema' ∧
      Listing.ofSchema schema' = Listing.ofSchema schema ∧
      Field.eraseAll schema'.properties = Field.eraseAll schema.properties := by
  obtain ⟨other, middle, properties, after, same, passes, rfl⟩ := passes_of_resolved resolved
  rw [rooted] at same
  cases same
  obtain ⟨middle', properties', after', passes', shown⟩ := extracts.passes passes
  obtain ⟨room, resolves⟩ := passes'.resolved rooted'
  refine ⟨assembled root' properties' after'.cache, ?_, ?_, ?_⟩
  · rw [(resolveWithin_of_limit_le selector start enough (Nat.le_max_right room document'.limit)).1]
    exact resolves _ (Nat.le_max_left ..)
  · exact Listing.ofFields_eq_of_shown shown (extracts.contains_names passes')
  · have erased := congrArg Field.eraseAll shown
    rwa [Field.eraseAll_shownAll, Field.eraseAll_shownAll] at erased

def address : Json := .object [("type", .string "object"),
  ("properties", .object [("street", .object [("type", .string "string")]),
    ("lines", .object [("type", .string "array"), ("items", .object [("type", .string "string")])])]),
  ("required", .array [.string "street"])]

/-- A letter with what stands for its address, and definitions. -/
def letter (addressed : Json) (definitions : Members) : Members := [("type", .string "object"),
  ("properties", .object [("text", .object [("type", .string "string")]), ("to", addressed)]),
  ("required", .array [.string "to"]), ("definitions", .object definitions)]

def plainLetter : Members := letter address [("Page", address)]

def shortLetter : Members := letter (.referring "Address") [("Address", address), ("Page", address)]

/-- The address of a letter becomes a definition, before one that is there. -/
theorem extracted_listing_letter : ∃ schema schema',
    ((Document.value (.object plainLetter)).resolveWithin 20 Selector.first ()).result = .ok schema ∧
    ((Document.value (.object shortLetter)).resolveWithin 40 Selector.first ()).result = .ok schema' ∧
    Listing.ofSchema schema' = Listing.ofSchema schema ∧
    Field.eraseAll schema'.properties = Field.eraseAll schema.properties := by
  obtain ⟨schema, resolved⟩ : ∃ schema,
      ((Document.value (.object plainLetter)).resolveWithin 20 Selector.first ()).result = .ok schema :=
    exists_of_toBool (by decide +kernel)
  have extracts : plainLetter.Extracts shortLetter "to" "Address" address := by
    refine ⟨⟨[("text", .object [("type", .string "string")])], [], rfl, rfl⟩, ⟨[], [("Page", address)], rfl, rfl⟩, ?_, ?_,
      ?_, ?_, ?_, ?_⟩
    · intro key listed declared
      simp [plainLetter, shortLetter, letter, Members.given?, Entries.get?, Ne.symm listed, Ne.symm declared]
    · unfold Json.SelfContained
      decide
    · decide
    · decide
    · decide
    · decide
  have enough : (Document.value (.object shortLetter)).limit ≤ 40 := by decide
  obtain ⟨schema', resolved', same, erased⟩ := extracted_listing rfl rfl extracts resolved enough
  exact ⟨schema, schema', resolved, resolved', same, erased⟩

end Document
end FieldTree
