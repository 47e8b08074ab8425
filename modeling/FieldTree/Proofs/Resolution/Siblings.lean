import FieldTree.Proofs.Resolution.Reaches
import Mathlib.Data.List.Nodup

/-! The names of the fields in one object. The keys of one object in a document are distinct, so only an object that is
merged from branches can have two fields of one name: if two of the branches add a field of that name. -/

namespace FieldTree

variable {σ : Type}

namespace Field

/-- No two fields of the object have one name. -/
def Apart (field : Field) : Prop := ∀ fields, field.contents? = some fields → (fields.map Field.name).Nodup

theorem apart_object {name : Option String} {required : Option Bool} {fields : List Field}
    {requiredNames : List String} :
    (Field.object name required fields requiredNames).Apart ↔ (fields.map Field.name).Nodup := by
  simp [Apart, contents?]

theorem apart_of_contents {field : Field} (other : field.contents? = none) : field.Apart := by
  intro fields impossible
  rw [other] at impossible
  cases impossible

end Field

/-- The names of the fields that a branch adds to a combination: the properties that it describes, or those of the object
that it refers to. Any other target is added under the name of the combination. -/
def Members.contributes (cache : Entries Field) (name : Option String) (branch : Members) : List (Option String) :=
  if Node.isReference branch then
    match (Node.target branch).toOption.bind cache.get? with
    | some field =>
      match field.contents? with
      | some fields => if Node.hasType branch then [name] else fields.map Field.name
      | none => [name]
    | none => []
  else (Json.members (branch.given? "properties")).map fun entry => some entry.1

/-- Two fields of one name are added by the branches. -/
def Overlap (name : Option String) (branches : List Members) (cache : Entries Field) : Prop :=
  ¬(branches.flatMap (Members.contributes cache name)).Nodup

theorem Entries.Distinct.nodup_names {members : Members} (distinct : Entries.Distinct members) :
    (members.map fun entry => some entry.1).Nodup := by
  have names := List.Nodup.map (fun _ _ => Option.some.inj) distinct
  rwa [List.map_map] at names

theorem Members.contributes_of_reference {branch : Members} (reference : Node.isReference branch = true)
    {target : String} (refers : Node.target branch = .ok target) {cache : Entries Field} {field : Field}
    (known : cache.get? target = some field) {name : Option String} {fields : List Field}
    (adds : field.added name branch = .ok fields) : branch.contributes cache name = fields.map Field.name := by
  simp only [contributes, reference, refers, Except.toOption, Option.bind_some, known, ite_true]
  rcases Field.added_cases adds with ⟨rfl, typed | other⟩ | ⟨untyped, inside⟩
  · cases field.contents? <;> simp [typed]
  · simp [other]
  · simp [inside, untyped]

/-- The values in a task have no key twice in one object. -/
def Task.Distinct : Task → Prop
  | .node _ _ value => value.Distinct
  | .all _ inner => ∀ one ∈ inner, one.node.Distinct
  | .merge _ branches => ∀ branch ∈ branches, (Json.object branch).Distinct

namespace Json.Distinct

theorem inherited : Inherited Distinct :=
  fun {value _} distinct inside members deeper => distinct members (parts_trans deeper value inside)

variable {members : Members} {key : String}

theorem members_given (distinct : (Json.object members).Distinct) :
    (Json.object (Json.members (members.given? key))).Distinct := by
  cases found : members.given? key with
  | none => exact .of_object List.nodup_nil (List.forall_mem_nil _)
  | some value =>
    cases value with
    | object inner => exact inherited.given distinct found
    | _ => exact .of_object List.nodup_nil (List.forall_mem_nil _)

theorem keys (distinct : (Json.object members).Distinct) : Entries.Distinct members :=
  distinct members (self_mem_parts _)

end Json.Distinct

theorem Members.nodup_contributes {branch : Members} (distinct : (Json.object branch).Distinct) {cache : Entries Field}
    (apart : cache.Every fun _ field => field.Apart) (name : Option String) :
    (branch.contributes cache name).Nodup := by
  unfold contributes
  split
  · split
    next field found =>
      obtain ⟨target, _, known⟩ := Option.bind_eq_some_iff.mp found
      split
      next fields inside =>
        split
        · exact List.nodup_singleton _
        · exact apart target field known fields inside
      next => exact List.nodup_singleton _
    next => exact List.nodup_nil
  · exact distinct.members_given.keys.nodup_names

section
variable {context : Context σ} {before after : State σ}

/-- What a task begins is part of the task or of a definition. -/
theorem Starts.distinct (definitions : (Json.object context.definitions).Distinct) {task task' : Task} {before' : State σ}
    (starts : Starts context task before task' before') (distinct : task.Distinct) : task'.Distinct := by
  cases starts with
  | inside shape => exact fun one among => Json.Distinct.inherited distinct ((Shape.ofNode_group shape).1 one among)
  | body _ _ _ _ given => exact Json.Distinct.inherited.given definitions given
  | first shape listed taken =>
    obtain ⟨rfl, _⟩ := Shape.ofNode_combination shape
    exact Node.inherited_branch Json.Distinct.inherited distinct listed (Walker.mem_of_take taken List.mem_cons_self)
  | merge _ shape listed taken =>
    obtain ⟨rfl, _⟩ := Shape.ofNode_combination shape
    exact fun branch member => Node.inherited_branch Json.Distinct.inherited distinct listed (Walker.mem_of_take taken member)
  | scalar _ shape listed taken =>
    obtain ⟨rfl, _⟩ := Shape.ofNode_combination shape
    exact Node.inherited_branch Json.Distinct.inherited distinct listed (Walker.mem_of_take taken List.mem_cons_self)
  | here => exact distinct _ List.mem_cons_self
  | later => exact fun one among => distinct one (List.mem_cons_of_mem _ among)
  | inline =>
    intro one among
    obtain ⟨entry, member, rfl⟩ := List.mem_map.mp among
    exact Node.inherited_member Json.Distinct.inherited (distinct _ List.mem_cons_self) member
  | afterInline => exact fun branch member => distinct branch (List.mem_cons_of_mem _ member)
  | afterReference => exact fun branch member => distinct branch (List.mem_cons_of_mem _ member)

/-- The nodes inside another have names of their own. -/
theorem Shape.nodup_of_group {manner : Manner} {site : Site} {node : Json} {inner : List Inner} {making : Making}
    (distinct : node.Distinct) (shape : Shape.ofNode manner site node = .group inner making) :
    (inner.map fun one => one.site.name).Nodup := by
  obtain ⟨members, place, rfl, _, form⟩ := Shape.ofNode_object shape (by simp)
  cases form with
  | array => exact List.nodup_singleton _
  | listed given =>
    rw [Shape.listed, List.map_map]
    exact (Json.Distinct.inherited.given distinct given).keys.nodup_names
  | map => exact List.nodup_singleton _
  | own =>
    rw [Shape.own, Shape.unlisted, List.map_map]
    exact Entries.Distinct.nodup_names (distinct.keys.sublist (List.filter_sublist.map _))

/-- What a making makes has fields of different names. -/
theorem Yields.made_apart {manner : Manner} {site : Site} {node : Json} {inner : List Inner} {making : Making}
    {fields : List Field} {made : Field} (shape : Shape.ofNode manner site node = .group inner making)
    (each : Yields context (.all manner.side inner) before fields after) (makes : making.make fields = .ok (some made))
    (distinct : node.Distinct) : made.Apart := by
  intro contents inside
  rw [← Field.children_of_contents inside, Yields.children_of_make shape each makes]
  exact each.names_sublist.nodup (Shape.nodup_of_group distinct shape)

/-- Of a branch that describes properties comes one field for each. -/
theorem Yields.names_unlisted {members : Members} {fields : List Field}
    (yields : Yields context (.all .property (Shape.unlisted members)) before fields after) :
    fields.map Field.name = members.map fun entry => some entry.1 := by
  have whole : fields.map Field.name = (Shape.unlisted members).map fun one => one.site.name :=
    yields.whole (.of_property rfl) (.of_property rfl)
  rw [whole, Shape.unlisted, List.map_map]
  rfl

/-- The fields of a combination have the names that its branches contribute, in their order. -/
theorem Yields.names_merge {name : Option String} {branches : List Members} {fields : List Field}
    (yields : Yields context (.merge name branches) before fields after) :
    fields.map Field.name = branches.flatMap (Members.contributes before.cache name) := by
  induction branches generalizing before fields with
  | nil =>
    cases yields
    rfl
  | cons branch rest ih =>
    cases yields with
    | mergeInline inline here later =>
      rw [List.map_append, here.names_unlisted, ih later, here.cache_of_property rfl, List.flatMap_cons]
      simp only [Members.contributes, inline, Bool.false_eq_true, ite_false]
    | mergeReference reference refers known adds later =>
      rw [List.map_append, ih later, List.flatMap_cons, Members.contributes_of_reference reference refers known adds]

end

/-- On the side of the definitions no branches are merged. -/
theorem Field.Law.apart (context : Context σ) :
    Law context (fun task _ => task.side = .definition ∧ task.Distinct) Field.Apart where
  rename name apart := by simpa only [Field.Apart, contents?_rename] using apart
  withRequired required inObject _ apart := by simpa only [Field.Apart, contents?_withRequired] using apart
  leaf shape := by
    obtain ⟨type, rfl⟩ := Shape.ofNode_leaf shape
    exact apart_of_contents rfl
  made begun shape each makes := Yields.made_apart shape each makes begun.2
  wrapped wraps := by
    obtain ⟨minItems, rfl, _⟩ := Node.arrayField_of_ok none wraps
    exact apart_of_contents rfl
  merged side begun := by
    have other := side.symm.trans begun.1
    cases other
  empty _ := apart_object.mpr List.nodup_nil

/-- A task on the side of the properties, in a document whose keys are distinct. -/
structure Task.Sound (task : Task) (before : State σ) : Prop where
  side : task.side = .property
  distinct : task.Distinct
  cached : before.cache.Every fun _ field => field.Everywhere Field.Apart

/-- Nothing is cached on this side. -/
theorem Task.Sound.starts {context : Context σ} (definitions : (Json.object context.definitions).Distinct)
    {task task' : Task} {before before' : State σ} (sound : task.Sound before)
    (starts : Starts context task before task' before') : task'.Sound before' where
  side := starts.side_eq.trans sound.side
  distinct := starts.distinct definitions sound.distinct
  cached := (starts.cache_of_property sound.side).symm ▸ sound.cached

section
variable {context : Context σ} {before after : State σ} {name : Option String}

theorem Yields.nodup_iff {branches : List Members} {fields : List Field}
    (yields : Yields context (.merge name branches) before fields after) :
    (fields.map Field.name).Nodup ↔ ¬Overlap name branches before.cache := by
  rw [yields.names_merge, Overlap, not_not]

theorem Yields.nodup_append_iff {branch : Members} {rest : List Members} {fields others : List Field}
    (yields : Yields context (.merge name (branch :: rest)) before (fields ++ others) after) :
    ((fields ++ others).map Field.name).Nodup ↔
      ¬Overlap name (branch :: rest) before.cache ∧ (others.map Field.name).Nodup := by
  rw [yields.nodup_iff]
  refine (and_iff_left_of_imp fun apart => ?_).symm
  rw [← yields.nodup_iff, List.map_append] at apart
  exact apart.of_append_right

end

/-- Only branches that overlap make fields of one name. -/
theorem Field.MergeLaw.apart {context : Context σ} (definitions : (Json.object context.definitions).Distinct) :
    MergeLaw context Task.Sound Field.Apart (fun fields => (fields.map Field.name).Nodup) Overlap where
  side sound := sound.side
  starts sound := sound.starts definitions
  leaf := (Law.apart context).leaf
  made sound shape each makes := Yields.made_apart shape each makes sound.distinct
  takeOver sound known := (Law.apart context).everywhere_takeOver (sound.cached _ _ known)
  added sound known := (Law.apart context).everywhere_added (sound.cached _ _ known)
  merged := apart_object
  nil := ⟨List.nodup_nil, not_not.mpr List.nodup_nil⟩
  inline _ inline here later := (Yields.mergeInline inline here later).nodup_append_iff
  reference _ reference refers known adds later := (Yields.mergeReference reference refers known adds later).nodup_append_iff

/-- The fields of the object have different names, or they were gathered from branches that overlap, one after another. -/
def Field.Gathered (visited : Task → State σ → Prop) (cache : Entries Field) (field : Field) : Prop :=
  ∀ fields, field.contents? = some fields → (fields.map Field.name).Nodup ∨
    ∃ name branches before, visited (.merge name branches) before ∧ Overlap name branches cache ∧
      fields.map Field.name = branches.flatMap (Members.contributes cache name)

theorem Field.Apart.gathered {field : Field} (apart : field.Apart) (visited : Task → State σ → Prop)
    (cache : Entries Field) : field.Gathered visited cache :=
  fun fields inside => .inl (apart fields inside)

theorem Field.Law.gathered (context : Context σ) (visited : Task → State σ → Prop) (cache : Entries Field) :
    Law context (fun task before => visited task before ∧ task.Sound before ∧ before.cache = cache)
      (Field.Gathered visited cache) where
  rename name gathered := by simpa only [Field.Gathered, contents?_rename] using gathered
  withRequired required inObject _ gathered := by simpa only [Field.Gathered, contents?_withRequired] using gathered
  leaf shape := ((Law.apart context).leaf shape).gathered visited cache
  made begun shape each makes := (Yields.made_apart shape each makes begun.2.1.distinct).gathered visited cache
  wrapped wraps := ((Law.apart context).wrapped wraps).gathered visited cache
  merged _ _ _ onward walked := by
    rintro _ ⟨⟩
    obtain ⟨begun, _, rfl⟩ := onward
    refine or_iff_not_imp_left.mpr fun shared => ⟨_, _, _, begun, ?_, walked.names_merge⟩
    exact not_not.mp (walked.nodup_iff.not.mp shared)
  empty name := ((Law.apart context).empty name).gathered visited cache

namespace Document

variable {document : Document} {root : Members} {selector : Selector σ} {start : σ} {bound : Nat} {schema : Schema}

/-- Whatever definitions a document has, the objects in them have fields of different names. -/
theorem apart_of_definesAll (distinct : (Json.object root).Distinct) {middle : State σ}
    (defines : DefinesAll (context root selector) root.declarations (State.fresh start) middle) :
    middle.cache.Every fun _ field => field.Everywhere Field.Apart := by
  have definitions : (Json.object root.declarations).Distinct := distinct.members_given
  refine upholds_of_definesAll (.apart _)
    (fun begun starts => ⟨starts.side_eq.trans begun.1, starts.distinct definitions begun.2⟩) ?_ defines
  intro passed name node rest before task state declared _ begins
  have declares : (name, node) ∈ root.declarations := declared ▸ List.mem_append_right _ List.mem_cons_self
  have here : node.Distinct := Node.inherited_member Json.Distinct.inherited distinct declares
  cases begins with
  | plain => exact ⟨rfl, here⟩
  | aliased => exact ⟨rfl, here⟩
  | ahead _ _ _ given => exact ⟨rfl, Json.Distinct.inherited.given definitions given⟩

theorem sound_outer (distinct : (Json.object root).Distinct) {middle : State σ}
    (defines : DefinesAll (context root selector) root.declarations (State.fresh start) middle) :
    (Task.all .property (outer root)).Sound middle where
  side := rfl
  distinct one among := by
    obtain ⟨entry, member, rfl⟩ := List.mem_map.mp among
    exact Node.inherited_member Json.Distinct.inherited distinct member
  cached := apart_of_definesAll distinct defines

section
variable {middle after : State σ} {properties : List Field}

/-- An object in the properties that has two fields of one name was gathered from branches of which two add it. -/
theorem gathered_of_passes (distinct : (Json.object root).Distinct)
    (passes : Passes root selector start middle properties after) :
    ∀ field ∈ properties, field.Everywhere (Field.Gathered (Visits root selector start) after.cache) := by
  have definitions : (Json.object root.declarations).Distinct := distinct.members_given
  have sound := sound_outer distinct passes.definitions
  have same : after.cache = middle.cache := passes.properties.cache_of_property rfl
  refine (passes.properties.upholds (.gathered _ (Visits root selector start) after.cache) ?_ ?_ ?_).2
  · rintro task before task' before' ⟨visited, sound, known⟩ starts
    exact ⟨.inner visited starts, sound.starts definitions starts, (starts.cache_of_property sound.side).trans known⟩
  · exact ⟨.properties passes.definitions, sound, same.symm⟩
  · exact fun name field known part inside => (sound.cached name field known part inside).gathered _ _

/-- No branch adds a name twice by itself. -/
theorem nodup_contributes_of_meets (distinct : (Json.object root).Distinct)
    (passes : Passes root selector start middle properties after) {name : Option String} {branches : List Members}
    {before : State σ} (meets : Meets root selector start (.merge name branches) before) :
    ∀ branch ∈ branches, (branch.contributes after.cache name).Nodup := by
  intro branch among
  have definitions : (Json.object root.declarations).Distinct := distinct.members_given
  rw [← meets.cache passes]
  obtain ⟨_, defines, reaches⟩ := meets
  have sound := reaches.keeps (fun sound starts => sound.starts definitions starts) (sound_outer distinct defines)
  have objects : before.cache.Every fun _ field => field.Apart :=
    fun name field known => (Field.everywhere_iff.mp (sound.cached name field known)).1
  exact Members.nodup_contributes (sound.distinct branch among) objects name

theorem nodup_properties (distinct : (Json.object root).Distinct)
    (passes : Passes root selector start middle properties after) : (properties.map Field.name).Nodup := by
  have entries : (Json.object (Json.members (root.given? "properties"))).Distinct := distinct.members_given
  have names := passes.properties.names_sublist
  rw [outer, List.map_map] at names
  exact names.nodup entries.keys.nodup_names

end

/-- The pass over the properties merges branches of which two add a field of one name. -/
def Overlaps (root : Members) (selector : Selector σ) (start : σ) (definitions : Entries Field) : Prop :=
  ∃ name branches before, Meets root selector start (.merge name branches) before ∧ Overlap name branches definitions

/-- In a document that resolves, all objects in the properties have fields of different names unless the pass over them
merges branches of which two add a field of one name. An object that has two fields of one name was gathered from such
branches, and has what they add one after another. No branch adds a name twice by itself, so this takes at least two
branches; objects among the definitions never have it, nor has the list of the properties. -/
theorem apart_unless_overlapping (wellFormed : document.WellFormed)
    (resolved : (document.resolveWithin bound selector start).result = .ok schema) :
    ∃ root, document.root = .ok root ∧
      ((∀ field ∈ schema.properties, field.Everywhere Field.Apart) ↔
        ¬Overlaps root selector start schema.definitions) ∧
      (∀ field ∈ schema.properties,
        field.Everywhere (Field.Gathered (Visits root selector start) schema.definitions)) ∧
      (∀ name branches before, Meets root selector start (.merge name branches) before →
        ∀ branch ∈ branches, (branch.contributes schema.definitions name).Nodup) ∧
      (∀ name field, Entries.get? schema.definitions name = some field → field.Everywhere Field.Apart) ∧
      (schema.properties.map Field.name).Nodup := by
  obtain ⟨root, middle, properties, after, rooted, passes, rfl⟩ := passes_of_resolved resolved
  have distinct := distinct_of_root wellFormed rooted
  have definitions : (Json.object root.declarations).Distinct := distinct.members_given
  have same : after.cache = middle.cache := passes.properties.cache_of_property rfl
  have sound := sound_outer distinct passes.definitions
  refine ⟨root, rooted, ?_, gathered_of_passes distinct passes, fun _ _ _ => nodup_contributes_of_meets distinct passes,
    same ▸ sound.cached, nodup_properties distinct passes⟩
  rw [← not_iff_not, not_not]
  exact (not_congr (passes.properties.abides_iff (.apart definitions) sound)).trans (meets_iff passes Overlap).symm

/-- Both branches tell that a price has an amount. -/
def price : Members :=
  [("definitions", .object
    [("Amount", .object [("properties", .object [("amount", .object [("type", .string "number")])])])]),
   ("properties", .object [("price", .object [("allOf", .array
    [.object [("$ref", .string "#/definitions/Amount")],
     .object [("properties", .object [("amount", .object [("type", .string "number")])])]])])])]

/-- The price has the amount twice. -/
theorem amounts_of_price : (Document.value (.object price)).WellFormed ∧ ∃ schema fields required,
    ((Document.value (.object price)).resolveWithin 20 Selector.first ()).result = .ok schema ∧
      schema.properties = [.object (some "price") required fields []] ∧
      fields.map Field.name = [some "amount", some "amount"] ∧
      ¬∀ field ∈ schema.properties, field.Everywhere Field.Apart := by
  refine ⟨by unfold Document.WellFormed; decide, _, _, _, rfl, rfl, rfl, fun everywhere => ?_⟩
  have apart := (Field.everywhere_iff.mp (everywhere _ List.mem_cons_self)).1 _ rfl
  exact absurd apart (by decide)

/-- It is merged from branches that overlap. -/
theorem overlaps_price : (Document.value (.object price)).WellFormed ∧ ∃ schema,
    ((Document.value (.object price)).resolveWithin 20 Selector.first ()).result = .ok schema ∧
      Overlaps price Selector.first () schema.definitions ∧
      ∀ name field, Entries.get? schema.definitions name = some field → field.Everywhere Field.Apart := by
  have wellFormed : (Document.value (.object price)).WellFormed := by
    unfold Document.WellFormed
    decide
  have resolved : ((Document.value (.object price)).resolveWithin 20 Selector.first ()).result = .ok _ := rfl
  obtain ⟨root, rooted, apart, _, _, definitions, _⟩ := apart_unless_overlapping wellFormed resolved
  cases rooted
  refine ⟨wellFormed, _, resolved, not_not.mp (apart.not.mp fun everywhere => ?_), definitions⟩
  have fields := (Field.everywhere_iff.mp (everywhere _ List.mem_cons_self)).1 _ rfl
  exact absurd fields (by decide)

end Document
end FieldTree
