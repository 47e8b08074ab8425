import FieldTree.Proofs.Configuration.Rules
import FieldTree.Proofs.Configuration.Written
import FieldTree.Proofs.Listing.Room
import FieldTree.Proofs.Resolution.Failures

/-! Of the configurations that a value describes those are loaded whose schema gives a list. For any other value loading
ends with what is wrong with it, unless the schema resolves and its fields are nested too deep to be listed. The schema
stands in the value here, not in a file of its own. -/

namespace FieldTree

variable {tree : FileTree} {path : Path}

namespace Loading

variable {α β : Type}

/-- On the tree the loading comes to a value of these, or tells what is wrong if there is none, and the tree stays as it
is. -/
def Admits (tree : FileTree) (loading : Loading (StateM FileTree) α) (admitted : α → Prop) : Prop :=
  ∃ result : Except ConfigurationError α,
    Finds tree loading (result.mapError .configuration) ∧ ∀ value, result = .ok value ↔ admitted value

variable {loading : Loading (StateM FileTree) α} {admitted admitted' : α → Prop}

theorem admits_orFail (tree : FileTree) (result : Except ConfigurationError α) :
    Admits tree (orFail result) fun value => result = .ok value :=
  ⟨result, finds_orFail tree result, fun _ => Iff.rfl⟩

theorem admits_pure (tree : FileTree) (value : α) : Admits tree (pure value) fun found => value = found :=
  ⟨.ok value, finds_pure tree value, fun _ => ⟨Except.ok.inj, congrArg _⟩⟩

theorem Admits.congr (admits : Admits tree loading admitted) (same : ∀ value, admitted value ↔ admitted' value) :
    Admits tree loading admitted' := by
  obtain ⟨result, finds, ok⟩ := admits
  exact ⟨result, finds, fun value => (ok value).trans (same value)⟩

theorem Admits.bind {rest : α → Loading (StateM FileTree) β} {later : α → β → Prop}
    (admits : Admits tree loading admitted) (goesOn : ∀ value, admitted value → Admits tree (rest value) (later value)) :
    Admits tree (loading >>= rest) fun found => ∃ value, admitted value ∧ later value found := by
  obtain ⟨result, finds, ok⟩ := admits
  cases result with
  | error error =>
    refine ⟨.error error, finds.fails rest, fun found => ⟨nofun, ?_⟩⟩
    rintro ⟨value, good, _⟩
    cases (ok value).mpr good
  | ok value =>
    obtain ⟨result, finds', ok'⟩ := goesOn value ((ok value).mp rfl)
    refine ⟨result, finds.andThen finds', fun found => ⟨fun same => ⟨value, (ok value).mp rfl, (ok' found).mp same⟩, ?_⟩⟩
    rintro ⟨other, good, good'⟩
    cases (ok other).mpr good
    exact (ok' found).mpr good'

end Loading

namespace Configuration
open Loading Yaml

variable {value : Yaml}

theorem admits_inline (tree : FileTree) (base : Path) (text : String) :
    Admits tree (SchemaSource.ofPlace base (.inline text)) fun source =>
      Text.strip text ≠ "" ∧ source = ⟨"json_schema", text, none⟩ := by
  refine ((admits_orFail tree (schemaText text)).bind fun text _ => admits_pure tree _).congr fun source => ?_
  simp only [schemaText_eq_ok_iff]
  constructor
  · rintro ⟨_, ⟨something, rfl⟩, rfl⟩
    exact ⟨something, rfl⟩
  · rintro ⟨something, rfl⟩
    exact ⟨text, ⟨something, rfl⟩, rfl⟩

/-- Of a value without a path the configuration is read that it describes. -/
theorem admits_ofYaml (tree : FileTree) (path : Path) (pathless : Pathless value) :
    Admits tree (ofYaml path value) (Describes path value) := by
  have admits_source (root : List (Yaml × Yaml)) (rooted : rootOf value = .ok root) (place : SchemaPlace)
      (placed : schemaPlace root = .ok place) : Admits tree (SchemaSource.ofPlace path.parent place) fun source =>
        ∃ text, place = .inline text ∧ Text.strip text ≠ "" ∧ source = ⟨"json_schema", text, none⟩ := by
    obtain ⟨text, _, _, rfl⟩ := (schemaPlace_eq_ok_iff (pathless.ofRoot rooted)).mp placed
    refine (admits_inline tree path.parent text).congr fun source => ?_
    simp
  refine ((admits_orFail tree (rootOf value)).bind fun root rooted =>
    (admits_orFail tree (schemaPlace root)).bind fun place placed =>
    (admits_source root rooted place placed).bind fun schema _ =>
    (admits_orFail tree (seedOf root)).bind fun seed _ =>
    (admits_orFail tree (formatOf root)).bind fun format _ => admits_pure tree _).congr fun configuration => ?_
  constructor
  · rintro ⟨root, rooted, place, placed, _, ⟨text, rfl, something, rfl⟩, seed, seeded, format, formatted, rfl⟩
    obtain ⟨_, tells, _, same⟩ := (schemaPlace_eq_ok_iff (pathless.ofRoot rooted)).mp placed
    cases same
    rcases rootOf_eq_ok_iff.mp rooted with rfl | ⟨_, rfl⟩
    · exact .mapping tells something (seedOf_eq_ok_iff.mp seeded) (formatOf_eq_ok_iff.mp formatted)
    · obtain ⟨present⟩ := tells
      cases present
  · intro describes
    cases describes with
    | @mapping root text seed format tells something seeded formatted =>
      have given : text ≠ "" := by
        rintro rfl
        exact something rfl
      exact ⟨root, rfl, .inline text, (schemaPlace_eq_ok_iff pathless).mpr ⟨text, tells, given, rfl⟩, _,
        ⟨text, rfl, something, rfl⟩, seed, seedOf_eq_ok_iff.mpr seeded, format, formatOf_eq_ok_iff.mpr formatted, rfl⟩

/-- From the seed, the schema in the text resolves, and its fields give a list of leaves. -/
def Lists (room : Room) (text : String) (seed : Int) : Prop :=
  ∃ schema leaves,
    ((Document.text text).resolveWithin room.nodes Selector.random (Twister.ofSeed seed)).result = .ok schema ∧
      Listing.ofSchemaWithin room.fields schema = .ok leaves

/-- From the seed, the schema in the text resolves, but its fields are nested deeper than there is room for. -/
def Overruns (room : Room) (text : String) (seed : Int) : Prop :=
  ∃ schema, ((Document.text text).resolveWithin room.nodes Selector.random (Twister.ofSeed seed)).result = .ok schema ∧
    Listing.Overruns room.fields (Listing.stopsOf schema)

/-- Random choices never stray, so a schema that gives no list is itself at fault, or needs more room. -/
theorem ofText_result (room : Room) (text : String) (seed : Int) :
    let result := (Listing.ofText room Selector.random (Twister.ofSeed seed) "json_schema" text).result
    ((∃ leaves, result = .ok leaves) ↔ Lists room text seed) ∧ (result = .error .noRoom ↔ Overruns room text seed) ∧
      ∀ cause, result = .error cause → cause = .noRoom ∨ ∃ error, cause = .listing error := by
  intro result
  have listed : result = Listing.ofResolved room "json_schema"
      ((Document.text text).resolveWithin room.nodes Selector.random (Twister.ofSeed seed)).result := rfl
  unfold Lists Overruns
  rcases Document.result_of_inRange Selector.random_inRange room.nodes (.text text) (Twister.ofSeed seed) with
    ⟨schema, resolved⟩ | ⟨cause, failed⟩
  · rw [resolved, Listing.ofResolved] at listed
    simp only [listed, resolved, Except.ok.injEq, exists_and_left, exists_eq_left']
    refine ⟨trivial, Listing.ofSchemaWithin_noRoom_iff, fun cause fails => ?_⟩
    rcases Listing.ofSchemaWithin_cases room.fields schema with cut | whole
    · cases cut.symm.trans fails
      exact .inl rfl
    · exact .inr (Listing.exists_of_mapError (whole.symm.trans fails))
  · rw [failed, Listing.ofResolved] at listed
    simp [listed, failed]

/-- Of the configurations that are described one is kept, if its schema gives a list. Where none is kept, something is
wrong with it, or it needs more room. -/
structure Judgement (result : Except ConfigurationFailure Configuration) (described : Configuration → Prop)
    (room : Room) (entropy : Int) : Prop where
  kept (configuration : Configuration) : result = .ok configuration ↔
    described configuration ∧ Lists room configuration.schema.text (configuration.seed.getD entropy)
  cut : result = .error .noRoom ↔ ∃ configuration, described configuration ∧
    Overruns room configuration.schema.text (configuration.seed.getD entropy)
  wrong : ∀ failure, result = .error failure → failure = .noRoom ∨ ∃ error, failure = .configuration error

theorem Judgement.congr {result : Except ConfigurationFailure Configuration} {described described' : Configuration → Prop}
    {room : Room} {entropy : Int} (judgement : Judgement result described room entropy)
    (same : ∀ configuration, described configuration ↔ described' configuration) :
    Judgement result described' room entropy := by
  obtain rfl : described = described' := funext fun configuration => propext (same configuration)
  exact judgement

theorem checked_judgement {configuration : Configuration} (typed : configuration.schema.type = "json_schema")
    (room : Room) (entropy : Int) :
    Judgement (configuration.checked room entropy).result (configuration = ·) room entropy := by
  obtain ⟨lists, overruns, fails⟩ := ofText_result room configuration.schema.text (configuration.seed.getD entropy)
  have checked : (configuration.checked room entropy).result = ((Listing.ofText room Selector.random
      (Twister.ofSeed (configuration.seed.getD entropy)) "json_schema" configuration.schema.text).result.map
        fun _ => configuration).mapError .ofListing := by
    simp only [Configuration.checked, SchemaSource.listing, typed]
    split
    next listed => rw [listed]; rfl
    next failed => rw [failed]; rfl
  have gives (kept : Configuration) :
      configuration = kept ∧ Lists room kept.schema.text (kept.seed.getD entropy) ↔
        configuration = kept ∧ Lists room configuration.schema.text (configuration.seed.getD entropy) :=
    and_congr_right fun same => same ▸ Iff.rfl
  rw [checked]
  cases listed : (Listing.ofText room Selector.random (Twister.ofSeed (configuration.seed.getD entropy)) "json_schema"
    configuration.schema.text).result with
  | ok leaves => constructor <;> simp [gives, ← lists, ← overruns, listed, Except.map]
  | error cause =>
    rcases fails cause listed with rfl | ⟨error, rfl⟩ <;> constructor <;>
      simp [gives, ← lists, ← overruns, listed, Except.map, ConfigurationFailure.ofListing]

theorem judged_judgement {found : Except ConfigurationError Configuration}
    (typed : ∀ configuration, found = .ok configuration → configuration.schema.type = "json_schema") (room : Room)
    (entropy : Int) :
    Judgement (judged room entropy (found.mapError .configuration)).result (found = .ok ·) room entropy := by
  cases found with
  | error error => constructor <;> simp [judged]
  | ok found => exact (checked_judgement (typed found rfl) room entropy).congr fun _ => (Except.ok.injEq ..).symm ▸ Iff.rfl

section
variable [YamlReader] {place : List String} {text : String}

theorem load_judgement (holds : tree.Holds path place text) (parsed : YamlReader.read text = .ok value)
    (pathless : Pathless value) (room : Room) (entropy : Int) :
    let loaded := (load room entropy path : StateM FileTree Loaded) tree
    loaded.2 = tree ∧ Judgement loaded.1.result (Describes path value) room entropy := by
  obtain ⟨found, finds, described⟩ := admits_ofYaml tree path pathless
  have typed (configuration : Configuration) (same : found = .ok configuration) :
      configuration.schema.type = "json_schema" := by
    cases (described configuration).mp same
    rfl
  rw [load_of_finds ((finds_document holds parsed).andThen finds) room entropy]
  exact ⟨rfl, (judged_judgement typed room entropy).congr described⟩

/-- A value is loaded as the configurations that it describes and whose schemas give lists. Otherwise it is wrong as a
configuration, unless the fields of the schema that it describes are nested deeper than there is room for. -/
theorem load_iff_describes (holds : tree.Holds path place text) (parsed : YamlReader.read text = .ok value)
    (pathless : Pathless value) (room : Room) (entropy : Int) :
    let loaded := (load room entropy path : StateM FileTree Loaded) tree
    loaded.2 = tree ∧
      (((∃ error, loaded.1.result = .error (.configuration error)) ∨
          ∃ configuration, loaded.1.result = .ok configuration ∧ Text.strip configuration.schema.text ≠ "" ∧
            configuration.format.name ∈ ["text", "json"] ∧
            ∀ seed, configuration.seed = some seed → Lists room configuration.schema.text seed) ↔
        ¬∃ configuration, Describes path value configuration ∧
          Overruns room configuration.schema.text (configuration.seed.getD entropy)) ∧
      (∀ configuration, loaded.1.result = .ok configuration ↔
        Describes path value configuration ∧ Lists room configuration.schema.text (configuration.seed.getD entropy)) ∧
      (loaded.1.result = .error .noRoom ↔ ∃ configuration, Describes path value configuration ∧
        Overruns room configuration.schema.text (configuration.seed.getD entropy)) := by
  obtain ⟨unchanged, judgement⟩ := load_judgement holds parsed pathless room entropy
  refine ⟨unchanged, ?_, judgement.kept, judgement.cut⟩
  rw [← judgement.cut]
  constructor
  · rintro (⟨error, failed⟩ | ⟨configuration, loaded, _⟩) cut
    · cases failed.symm.trans cut
    · cases loaded.symm.trans cut
  · intro roomy
    cases loaded : ((load room entropy path : StateM FileTree Loaded) tree).1.result with
    | error failure =>
      rcases judgement.wrong failure loaded with rfl | ⟨error, rfl⟩
      · exact absurd loaded roomy
      · exact .inl ⟨error, rfl⟩
    | ok configuration =>
      obtain ⟨describes, lists⟩ := (judgement.kept configuration).mp loaded
      have told : Text.strip configuration.schema.text ≠ "" := by
        cases describes
        assumption
      have named : configuration.format.name ∈ ["text", "json"] := by cases configuration.format <;> decide
      refine .inr ⟨configuration, rfl, told, named, fun seed seeded => ?_⟩
      rwa [seeded] at lists

end

theorem lists_order : Lists .usual (String.ofList order) 7 :=
  (ofText_result .usual (String.ofList order) 7).1.mp (listed_order (List.mem_cons_of_mem _ List.mem_cons_self) 7)

/-- What a configuration with a schema in it says. -/
theorem describes_inlined {schema : List Char} (something : Text.strip (String.ofList schema) ≠ "") :
    Describes path (.mapping (sectionsRoot "inline" (String.ofList schema) " Json " 7))
      ⟨path, ⟨"json_schema", String.ofList schema, none⟩, some 7, .json⟩ := by
  have named : Text.lower (Text.strip " Json ") = ListFormat.json.name := by rfl
  exact .mapping (.intro rfl rfl rfl rfl (.inline rfl)) something (.set rfl rfl) (.set rfl rfl named)

theorem pathless_inlined (schema : List Char) :
    Pathless (.mapping (sectionsRoot "inline" (String.ofList schema) " Json " 7)) := by
  intro root entries definition same present defined
  obtain rfl := Yaml.mapping.inj same
  cases present
  cases defined
  rfl

/-- A schema whose nodes are nested two deep, and its fields three, since a definition that is resolved is taken as it
is. -/
def nested : List Char :=
  "\x7b\"definitions\": \x7b\"Row\": \x7b\"type\": \"array\", \"items\": \x7b\"type\": \"string\"\x7d\x7d\x7d, ".toList ++
    "\"properties\": \x7b\"rows\": \x7b\"type\": \"array\", \"items\": \x7b\"$ref\": \"#/definitions/Row\"\x7d\x7d\x7d\x7d".toList

theorem plain_inlined : ∀ schema ∈ [order, nested],
    Text.isPlain (inlined schema) = true ∧ Token.ofChars (inlined schema) = inlinedTokens schema := by
  decide +kernel

/-- In the shop whose configuration holds the schema, the schema, the seed and the format are loaded. -/
theorem load_iff_describes_inlined :
    let tree := shop order ["srv", "shop", "fields.yaml"] (inlined order)
    let value := Yaml.mapping (sectionsRoot "inline" (String.ofList order) " Json " 7)
    tree.Holds (Path.ofString "fields.yaml") ["srv", "shop", "fields.yaml"] (String.ofList (inlined order)) ∧
      YamlReader.read (String.ofList (inlined order)) = .ok value ∧ Pathless value ∧
      ((load .usual 3 (Path.ofString "fields.yaml") : StateM FileTree Loaded) tree).1.result =
        .ok ⟨Path.ofString "fields.yaml", ⟨"json_schema", String.ofList order, none⟩, some 7, .json⟩ := by
  intro tree value
  have holds : tree.Holds (Path.ofString "fields.yaml") ["srv", "shop", "fields.yaml"] (String.ofList (inlined order)) :=
    .ofPlain rfl rfl (plain_inlined order (by simp)).1
  have read : YamlReader.read (String.ofList (inlined order)) = .ok value :=
    read_inlined (plain_inlined order (by simp)).2
  have describes : Describes (Path.ofString "fields.yaml") value _ := describes_inlined (strip_ne_empty List.mem_cons_self rfl)
  exact ⟨holds, read, pathless_inlined order,
    ((load_iff_describes holds read (pathless_inlined order) .usual 3).2.2.1 _).mpr ⟨describes, lists_order⟩⟩

theorem overruns_nested : Overruns ⟨2, 2⟩ (String.ofList nested) 7 := by
  have first : ∃ schema ∈ ((Document.text (String.ofList nested)).resolveWithin 2 Selector.random
      (Twister.ofSeed 7)).result.toOption, ∃ stop ∈ (Listing.stopsOf schema).head?, 2 < stop.depth := by decide +kernel
  obtain ⟨schema, resolved, stop, first, deep⟩ := first
  exact ⟨schema, eq_ok_of_toOption resolved, Listing.overruns_of_head? first deep⟩

/-- A configuration with a schema that resolves, with less room than there is for its list, ends neither in a
configuration nor in what is wrong with one. -/
theorem load_nested :
    let tree := shop order ["srv", "shop", "fields.yaml"] (inlined nested)
    let value := Yaml.mapping (sectionsRoot "inline" (String.ofList nested) " Json " 7)
    tree.Holds (Path.ofString "fields.yaml") ["srv", "shop", "fields.yaml"] (String.ofList (inlined nested)) ∧
      YamlReader.read (String.ofList (inlined nested)) = .ok value ∧ Pathless value ∧
      ((load ⟨2, 2⟩ 3 (Path.ofString "fields.yaml") : StateM FileTree Loaded) tree).1.result = .error .noRoom := by
  intro tree value
  have holds : tree.Holds (Path.ofString "fields.yaml") ["srv", "shop", "fields.yaml"] (String.ofList (inlined nested)) :=
    .ofPlain rfl rfl (plain_inlined nested (by simp)).1
  have read : YamlReader.read (String.ofList (inlined nested)) = .ok value :=
    read_inlined (plain_inlined nested (by simp)).2
  exact ⟨holds, read, pathless_inlined nested,
    (load_judgement holds read (pathless_inlined nested) ⟨2, 2⟩ 3).2.cut.mpr
      ⟨_, describes_inlined (strip_ne_empty List.mem_cons_self rfl), overruns_nested⟩⟩

end Configuration
end FieldTree
