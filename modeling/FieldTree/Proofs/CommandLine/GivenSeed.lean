import FieldTree.Proofs.CommandLine.Arguments
import FieldTree.Proofs.CommandLine.Run
import FieldTree.Proofs.Configuration.Written
import FieldTree.Proofs.Resolution.Simulation
import FieldTree.Proofs.Selector.Seeding

/-! A seed on the command line beside the seed of a configuration. The list is made from the seed that is given,
but the configuration is checked with its own: what it fails of then is all that is told. -/

namespace FieldTree.CommandLine
open FieldTree.Configuration

variable {tree first second : FileTree} {config given text text' : String} {place : List String}
  {root root' : List (Yaml × Yaml)} {own own' : Int}

/-- The schema of a configuration gives a list from a seed, if there is a schema. -/
def ListsFrom (tree : FileTree) (room : Room) (path : Path) (root : List (Yaml × Yaml)) (seed : Int) : Prop :=
  ∀ schema, Loading.Finds tree (source path root) (.ok schema) → (schema.listing room (some seed) 0).result.toBool = true

/-- What comes of the schema and the format of a configuration with a seed of its own where another is given: the list
from that seed, if there is one from the own seed. -/
def Ending.ofBoth (rooms : Rooms) (own given : Int) : Except ConfigurationFailure SchemaSource →
    Except ConfigurationError ListFormat → Ending
  | .error failure, _ => .failure "" (.configuration failure)
  | .ok _, .error error => .failure "" (.configuration (.configuration error))
  | .ok schema, .ok format =>
    if (schema.listing rooms.loading (some own) 0).result.toBool then .ofSchema rooms.listing schema given format
    else .ofSchema rooms.loading schema own format

/-- All that the own seed decides is whether there is a list. -/
theorem Ending.ofBoth_congr {rooms : Rooms} {schema : Except ConfigurationFailure SchemaSource}
    (lists : ∀ found, schema = .ok found → (found.listing rooms.loading (some own) 0).result.toBool = true)
    (lists' : ∀ found, schema = .ok found → (found.listing rooms.loading (some own') 0).result.toBool = true)
    (seed : Int) (format : Except ConfigurationError ListFormat) :
    Ending.ofBoth rooms own seed schema format = .ofBoth rooms own' seed schema format := by
  cases schema with
  | error failure => rfl
  | ok schema =>
    cases format with
    | error error => rfl
    | ok format => simp only [Ending.ofBoth, lists schema rfl, lists' schema rfl, if_true]

section
variable [CommandReader] [LawfulCommandReader]

theorem read_given {seed : Int} (read : Literal.int? given = some seed) :
    CommandReader.read ["fields", "--config", config, "--seed", given] =
      .ok (.fields ⟨some config, none, some seed, none, false⟩) := by
  have pairs : ["fields", "--config", config, "--seed", given] =
    "fields" :: givenAs [("--config", config), ("--seed", given)] := rfl
  rw [pairs]
  apply read_of_some (by simp [FieldsRequest.options])
  simp [FieldsRequest.ofValues?, lastValue?, List.lookup_cons, read]

variable [YamlReader]

/-- A text that is no integer is misuse, and nothing is looked at. -/
theorem run_given_unread (unread : Literal.int? given = none) (config : String) :
    ∃ output, ∀ rooms entropy (tree : FileTree),
      (run rooms entropy ["fields", "--config", config, "--seed", given] : StateM FileTree Ending) tree =
        (.ok output, tree) := by
  have asked : FieldsRequest.ofValues? (lastValue? [("--config", config), ("--seed", given)]) false = none := by
    simp [FieldsRequest.ofValues?, lastValue?, List.lookup_cons, unread]
  obtain ⟨output, answered, _⟩ := read_of_none (by simp [FieldsRequest.options]) asked
  exact ⟨output, fun rooms entropy _ => run_answered answered rooms entropy⟩

theorem run_given {seed : Int} (configured : tree.Holds (Path.ofString config) place text)
    (value : YamlReader.read text = .ok (.mapping root)) (seeded : seedOf root = .ok (some own))
    (read : Literal.int? given = some seed) {schema : Except ConfigurationFailure SchemaSource}
    (finds : Loading.Finds tree (source (Path.ofString config) root) schema) (rooms : Rooms) (entropy : Entropy) :
    ((run rooms entropy ["fields", "--config", config, "--seed", given] : StateM FileTree Ending) tree).1 =
      .ofBoth rooms own seed schema (formatOf root) := by
  rw [run_fields (read_given read), FieldsRequest.run_config rfl rfl rfl rooms entropy
    ((finds_document configured value).andThen (finds_ofYaml rfl finds seeded))]
  cases schema with
  | error failure => rfl
  | ok schema =>
    cases formatOf root with
    | error error => rfl
    | ok format =>
      let request : FieldsRequest := ⟨some config, none, some seed, none, false⟩
      let configuration : Configuration := ⟨Path.ofString config, schema, some own, format⟩
      exact @FieldsRequest.ofFound_of_seed request rfl rooms entropy configuration own rfl

/-- Two configurations that differ in their seeds alone give the same under a given seed, unless the schema gives
no list from one of their own. -/
theorem given_seed_overrides (alike : FileTree.AlikeBut place first second)
    (configured : first.Holds (Path.ofString config) place text)
    (configured' : second.Holds (Path.ofString config) place text')
    (value : YamlReader.read text = .ok (.mapping root)) (value' : YamlReader.read text' = .ok (.mapping root'))
    (others : ∀ key, key ≠ "resolution" → Yaml.get? root key = Yaml.get? root' key)
    (seeded : seedOf root = .ok (some own)) (seeded' : seedOf root' = .ok (some own'))
    (elsewhere : ∀ name, schemaPlace root = .ok (.file name) →
      first.follow (first.seenFrom (Path.ofString config) (Path.ofString name)) ≠ .ok place)
    (given : String) (rooms : Rooms) (entropy entropy' : Entropy) :
    (ListsFrom first rooms.loading (Path.ofString config) root own →
        ListsFrom first rooms.loading (Path.ofString config) root own' →
        ((run rooms entropy ["fields", "--config", config, "--seed", given] : StateM FileTree Ending) first).1 =
          ((run rooms entropy' ["fields", "--config", config, "--seed", given] : StateM FileTree Ending) second).1) ∧
      ∀ schema format seed, Loading.Finds first (source (Path.ofString config) root) (.ok schema) →
        formatOf root = .ok format → Literal.int? given = some seed →
        ((run rooms entropy ["fields", "--config", config, "--seed", given] : StateM FileTree Ending) first).1 =
          if (schema.listing rooms.loading (some own) 0).result.toBool then .ofSchema rooms.listing schema seed format
          else .ofSchema rooms.loading schema own format := by
  constructor
  · intro lists lists'
    cases read : Literal.int? given with
    | none =>
      obtain ⟨output, answered⟩ := run_given_unread read config
      rw [answered, answered]
    | some seed =>
      have placed : schemaPlace root = schemaPlace root' := schemaPlace_congr (others _ (by decide))
      have formatted : formatOf root = formatOf root' := formatOf_congr (others _ (by decide))
      obtain ⟨schema, finds, finds'⟩ := alike_source alike elsewhere
      have same : (source (Path.ofString config) root' : Loading (StateM FileTree) _) = source (Path.ofString config) root := by
        unfold source
        rw [placed]
      rw [run_given configured value seeded read finds rooms entropy,
        run_given configured' value' seeded' read (same ▸ finds') rooms entropy', formatted]
      refine Ending.ofBoth_congr ?_ ?_ seed (formatOf root')
      · exact fun found same => lists found (same ▸ finds)
      · exact fun found same => lists' found (same ▸ finds)
  · intro schema format seed finds formatted read
    rw [run_given configured value seeded read finds rooms entropy, formatted, Ending.ofBoth]

end

/-! A shop whose configuration stands beside its schema -/

/-- The configuration of a shop, by the word for its seed. -/
def shopWith (schema seed : List Char) : FileTree :=
  shop schema ["srv", "shop", "fields.yaml"] (written "order.json".toList "text".toList seed)

/-- A word that is read as a seed in the configuration of the shop. -/
structure Seeds (word : List Char) (seed : Int) : Prop where
  plain : Text.isPlain (written "order.json".toList "text".toList word) = true
  tokens : Yaml.Token.ofChars (written "order.json".toList "text".toList word) =
    writtenTokens "order.json".toList "text".toList word
  numbered : Yaml.Tag.ofWord word = .int
  counted : Yaml.intValue word = .ok seed

theorem Seeds.holds {word : List Char} {seed : Int} (seeds : Seeds word seed) (schema : List Char) :
    (shopWith schema word).Holds (Path.ofString "fields.yaml") ["srv", "shop", "fields.yaml"]
      (String.ofList (written "order.json".toList "text".toList word)) :=
  .ofPlain rfl rfl seeds.plain

theorem Seeds.read {word : List Char} {seed : Int} (seeds : Seeds word seed) :
    YamlReader.read (String.ofList (written "order.json".toList "text".toList word)) =
      .ok (.mapping (writtenRoot "order.json".toList "text".toList seed)) := by
  have named := ofWord_used.1 "order.json" (by simp)
  have formatted := ofWord_used.1 "text" (by simp)
  exact read_written seeds.tokens named formatted seeds.numbered seeds.counted

theorem Seeds.of_mem {digits : String} {seed : Int} (among : digits ∈ ["1", "7", "-3"])
    (plain : Text.isPlain digits.toList = true) (counted : Yaml.intValue digits.toList = .ok seed) :
    Seeds digits.toList seed where
  plain := isPlain_written rfl rfl plain
  tokens := tokens_used.1 digits among
  numbered := ofWord_used.2 digits (List.mem_append_left ["-42"] among)
  counted

theorem seeds_one : Seeds "1".toList 1 := .of_mem (by simp) rfl rfl

theorem seeds_seven : Seeds "7".toList 7 := .of_mem (by simp) rfl rfl

theorem seeds_minusThree : Seeds "-3".toList (-3) := .of_mem (by simp) rfl rfl

theorem finds_shopWith {schema : List Char} (plain : Text.isPlain schema = true)
    (told : Text.strip (String.ofList schema) ≠ "") (seed : List Char) (value : Int) :
    Loading.Finds (shopWith schema seed)
      (source (Path.ofString "fields.yaml") (writtenRoot "order.json".toList "text".toList value))
      (.ok ⟨Listing.jsonSchemaType, String.ofList schema, some ⟨"/", ["srv", "shop", "order.json"]⟩⟩) := by
  have holds : (shopWith schema seed).Holds ((shopWith schema seed).seenFrom (Path.ofString "fields.yaml")
      (Path.ofString "order.json")) ["srv", "shop", "order.json"] (String.ofList schema) :=
    .ofPlain rfl rfl plain
  have found := SchemaSource.finds_ofPlace (by rfl) (by rfl) holds
  unfold SchemaSource.inFile Configuration.schemaText at found
  rw [if_neg told] at found
  have placed : schemaPlace (writtenRoot "order.json".toList "text".toList value) = .ok (.file "order.json") := rfl
  unfold source
  rw [placed]
  exact (Loading.finds_orFail _ (.ok (SchemaPlace.file "order.json"))).andThen found

/-- Another seed in the configuration makes no difference to a schema without choices. -/
theorem given_seed_shop :
    let first := shopWith order "7".toList
    let second := shopWith order "-3".toList
    FileTree.AlikeBut ["srv", "shop", "fields.yaml"] first second ∧
      first.Holds (Path.ofString "fields.yaml") ["srv", "shop", "fields.yaml"]
        (String.ofList (written "order.json".toList "text".toList "7".toList)) ∧
      second.Holds (Path.ofString "fields.yaml") ["srv", "shop", "fields.yaml"]
        (String.ofList (written "order.json".toList "text".toList "-3".toList)) ∧
      ((run .usual ⟨3, 5⟩ ["fields", "--config", "fields.yaml", "--seed", "42"] : StateM FileTree Ending) first).1 =
        ((run .usual ⟨7, 11⟩ ["fields", "--config", "fields.yaml", "--seed", "42"] : StateM FileTree Ending) second).1 := by
  intro first second
  have alike : FileTree.AlikeBut ["srv", "shop", "fields.yaml"] first second := FileTree.alikeBut_put _ _ _ _
  have others : ∀ key, key ≠ "resolution" →
      Yaml.get? (writtenRoot "order.json".toList "text".toList 7) key =
        Yaml.get? (writtenRoot "order.json".toList "text".toList (-3)) key := by
    intro key other
    simp [writtenRoot, Yaml.get?, Ne.symm other]
  have elsewhere : ∀ name, schemaPlace (writtenRoot "order.json".toList "text".toList 7) = .ok (.file name) →
      first.follow (first.seenFrom (Path.ofString "fields.yaml") (Path.ofString name)) ≠
        .ok ["srv", "shop", "fields.yaml"] := by
    intro name told
    cases told
    intro same
    have reached : first.follow (first.seenFrom (Path.ofString "fields.yaml") (Path.ofString "order.json")) =
      .ok ["srv", "shop", "order.json"] := rfl
    exact absurd (Except.ok.inj (reached.symm.trans same)) (by decide)
  have lists (seed : Int) : ListsFrom first Rooms.usual.loading (Path.ofString "fields.yaml")
      (writtenRoot "order.json".toList "text".toList 7) seed := by
    intro schema finds
    have found := @finds_shopWith order rfl (strip_ne_empty List.mem_cons_self rfl) "7".toList 7
    cases found.unique finds
    obtain ⟨leaves, listed⟩ := listed_order List.mem_cons_self seed
    exact congrArg Except.toBool listed
  have overrides := given_seed_overrides alike (seeds_seven.holds order) (seeds_minusThree.holds order) seeds_seven.read
    seeds_minusThree.read others rfl rfl elsewhere "42" .usual ⟨3, 5⟩ ⟨7, 11⟩
  exact ⟨alike, seeds_seven.holds order, seeds_minusThree.holds order,
    overrides.1 (lists 7) (lists (-3))⟩

/-- A schema that gives a list if the first of two branches is chosen, and none if the second is. -/
def wavering : List Char :=
  "\x7b\"properties\": \x7b\"id\": \x7b\"anyOf\": [\x7b\"type\": \"string\"\x7d, \x7b\"type\": \"array\"\x7d]\x7d\x7d\x7d".toList

def waveringSource : SchemaSource :=
  ⟨Listing.jsonSchemaType, String.ofList wavering, some ⟨"/", ["srv", "shop", "order.json"]⟩⟩

/-- What comes of the wavering schema is known once the first choice is. -/
theorem listing_wavering {seed : Int} {index : Nat} (room : Room)
    (chosen : Selector.random.choose 2 (Twister.ofSeed seed) =
      .ok (index, (Twister.below 2 Selector.tries (Twister.ofSeed seed)).2)) :
    (waveringSource.listing room (some seed) 0).result = Listing.ofResolved room Listing.jsonSchemaType
      ((Document.text (String.ofList wavering)).resolveWithin room.nodes (Selector.random.foretold 2
        (Twister.ofSeed seed) (.ok (index, (Twister.below 2 Selector.tries (Twister.ofSeed seed)).2))) none).result := by
  have simulates := Selector.simulates_foretold chosen
  have started : Twister.ofSeed seed = (none : Option Twister).getD (Twister.ofSeed seed) := rfl
  exact congrArg (Listing.ofResolved room Listing.jsonSchemaType)
    (Document.result_of_simulates simulates started room.nodes _)

theorem lists_wavering_one : ∀ room ∈ [Rooms.usual.loading, Rooms.usual.listing],
    (waveringSource.listing room (some 1) 0).result.toBool = true := by
  have chosen := @Selector.random_choose_two 1 (by decide) 0 (by decide) (by decide +kernel)
  simp only [listing_wavering _ chosen]
  decide +kernel

theorem exists_listing {result : Except ListingFailure (List Leaf)}
    (wrong : (result matches .error (.listing _)) = true) : ∃ error, result = .error (.listing error) := by
  split at wrong
  · exact ⟨_, rfl⟩
  · cases wrong

theorem lists_wavering_seven :
    ∃ error, (waveringSource.listing Rooms.usual.loading (some 7) 0).result = .error (.listing error) := by
  have chosen := @Selector.random_choose_two 7 (by decide) 1 (by decide) (by decide +kernel)
  apply exists_listing
  rw [listing_wavering _ chosen]
  decide +kernel

/-- The seed of the configuration decides whether there is a list, though another seed is given. -/
theorem given_seed_wavering :
    let first := shopWith wavering "1".toList
    let second := shopWith wavering "7".toList
    FileTree.AlikeBut ["srv", "shop", "fields.yaml"] first second ∧
      first.Holds (Path.ofString "fields.yaml") ["srv", "shop", "fields.yaml"]
        (String.ofList (written "order.json".toList "text".toList "1".toList)) ∧
      second.Holds (Path.ofString "fields.yaml") ["srv", "shop", "fields.yaml"]
        (String.ofList (written "order.json".toList "text".toList "7".toList)) ∧
      YamlReader.read (String.ofList (written "order.json".toList "text".toList "1".toList)) =
        .ok (.mapping (writtenRoot "order.json".toList "text".toList 1)) ∧
      YamlReader.read (String.ofList (written "order.json".toList "text".toList "7".toList)) =
        .ok (.mapping (writtenRoot "order.json".toList "text".toList 7)) ∧
      ((run .usual ⟨3, 5⟩ ["fields", "--config", "fields.yaml", "--seed", "1"] : StateM FileTree Ending) first).1.exit? =
        some 0 ∧
      ((run .usual ⟨3, 5⟩ ["fields", "--config", "fields.yaml", "--seed", "1"] : StateM FileTree Ending) second).1.exit? =
        some 1 := by
  intro first second
  have found (seed : List Char) (value : Int) : Loading.Finds (shopWith wavering seed)
      (source (Path.ofString "fields.yaml") (writtenRoot "order.json".toList "text".toList value)) (.ok waveringSource) :=
    finds_shopWith rfl (strip_ne_empty List.mem_cons_self rfl) seed value
  have format (value : Int) : formatOf (writtenRoot "order.json".toList "text".toList value) = .ok .text := rfl
  have read : Literal.int? "1" = some 1 := by rfl
  have printed := run_given (seeds_one.holds wavering) seeds_one.read rfl read (found "1".toList 1) .usual ⟨3, 5⟩
  have printed' := run_given (seeds_seven.holds wavering) seeds_seven.read rfl read (found "7".toList 7) .usual ⟨3, 5⟩
  have lists := lists_wavering_one _ List.mem_cons_self
  have listed := lists_wavering_one _ (List.mem_cons_of_mem _ List.mem_cons_self)
  obtain ⟨error, fails⟩ := lists_wavering_seven
  refine ⟨FileTree.alikeBut_put _ _ _ _, seeds_one.holds wavering, seeds_seven.holds wavering, seeds_one.read,
    seeds_seven.read, ?_, ?_⟩
  · rw [printed, format, Ending.ofBoth, if_pos lists]
    exact Ending.exit_of_listed listed
  · have unlisted : ¬(waveringSource.listing Rooms.usual.loading (some 7) 0).result.toBool = true := by
      rw [fails]
      exact Bool.false_ne_true
    rw [printed', format, Ending.ofBoth, if_neg unlisted]
    exact Ending.exit_of_wrong fails

end FieldTree.CommandLine
