import FieldTree.Proofs.CommandLine.Arguments
import FieldTree.Proofs.CommandLine.Run
import FieldTree.Proofs.Configuration.Rules
import FieldTree.Proofs.Configuration.Written
import FieldTree.Proofs.Listing.Suffices
import FieldTree.Proofs.Number.Literal
import Mathlib.Algebra.Group.Int.Defs

/-! The same settings in a configuration and on the command line. -/

namespace FieldTree

namespace Configuration

variable {schema : String} {seed : Int} {format : ListFormat}

/-- The root of a configuration that says where the schema is, from which seed branches are chosen, and in which
format the list is written. -/
def settings (schema : String) (seed : Int) (format : ListFormat) : List (Yaml × Yaml) := [
  (.string "schema", .mapping [(.string Listing.jsonSchemaType, .mapping [(.string "path", .string schema)])]),
  (.string "resolution", .mapping [(.string "seed", .number (.int seed))]),
  (.string "output", .mapping [(.string "format", .string format.name)])]

/-- The order in which the settings are written makes no difference. -/
theorem get?_writtenRoot (path : List Char) (seed : Int) (format : ListFormat) (key : String) :
    Yaml.get? (writtenRoot path format.name.toList seed) key =
      Yaml.get? (settings (String.ofList path) seed format) key := by
  by_cases output : "output" = key
  · subst output
    simp [writtenRoot, settings, Yaml.get?, String.ofList_toList]
  · simp [writtenRoot, settings, Yaml.get?, output, Listing.jsonSchemaType]

theorem schemaPlace_settings (named : schema ≠ "") : schemaPlace (settings schema seed format) = .ok (.file schema) := by
  simp [schemaPlace, settings, sectionOf, Yaml.get?, unsupportedTypes, isGiven, Yaml.isTruthy, placeOfDefinition,
    placeOfParts, Listing.jsonSchemaType, named, bind, Except.bind]

theorem seedOf_settings : seedOf (settings schema seed format) = .ok (some seed) := rfl

theorem formatOf_settings : formatOf (settings schema seed format) = .ok format := by
  cases format <;> rfl

end Configuration

namespace CommandLine
open FieldTree.Configuration

variable {tree : FileTree} {config schema text source : String} {seed : Int} {format : ListFormat}
  {place place' : List String} {root : List (Yaml × Yaml)}

/-- What is found with a configuration that says what the settings say. -/
theorem finds_of_settings [YamlReader] (configured : tree.Holds (Path.ofString config) place text)
    (value : YamlReader.read text = .ok (.mapping root))
    (told : ∀ key, Yaml.get? root key = Yaml.get? (settings schema seed format) key) (named : schema ≠ "")
    (plain : (Path.ofString schema).hasNull = false)
    (holds : tree.Holds (tree.seenFrom (Path.ofString config) (Path.ofString schema)) place' source) :
    Loading.Finds tree (document (Path.ofString config) >>= ofYaml (Path.ofString config))
      ((SchemaSource.inFile (tree.seenFrom (Path.ofString config) (Path.ofString schema)) source).map fun schema =>
        { path := Path.ofString config, schema, seed := some seed, format }) := by
  have placed : schemaPlace root = .ok (.file schema) := (schemaPlace_congr (told _)).trans (schemaPlace_settings named)
  have seeded : seedOf root = .ok (some seed) := (seedOf_congr (told _)).trans seedOf_settings
  have formatted : formatOf root = .ok format := (formatOf_congr (told _)).trans formatOf_settings
  have found : Loading.Finds tree (Configuration.source (Path.ofString config) root)
      (SchemaSource.inFile (tree.seenFrom (Path.ofString config) (Path.ofString schema)) source) := by
    unfold Configuration.source
    rw [placed]
    exact (Loading.finds_orFail tree (.ok _)).andThen
      (SchemaSource.finds_ofPlace (FileTree.hasNull_of_follow configured.reached) plain holds)
  have finds := (finds_document configured value).andThen (finds_ofYaml rfl found seeded)
  rw [formatted] at finds
  exact finds

/-- The flags of a schema, a seed and a format. -/
def flags (schema : String) (seed : Int) (format : ListFormat) : List String :=
  ["fields", "--schema", schema, "--seed", toString seed, "--format", format.name]

theorem ofValues?_flags : FieldsRequest.ofValues?
      (lastValue? [("--schema", schema), ("--seed", toString seed), ("--format", format.name)]) false =
    if seed.natAbs < 10 ^ Literal.maxDigits then some ⟨none, some schema, some seed, some format, false⟩ else none := by
  have formatted : ListFormat.ofName? format.name = some format := by cases format <;> rfl
  have read : FieldsRequest.ofValues?
      (lastValue? [("--schema", schema), ("--seed", toString seed), ("--format", format.name)]) false =
        (Literal.int? (toString seed)).map fun seed => ⟨none, some schema, some seed, some format, false⟩ := by
    simp [FieldsRequest.ofValues?, lastValue?, List.lookup_cons, formatted]
    cases Literal.int? (toString seed) <;> rfl
  rw [read, Literal.int?_toString]
  split <;> rfl

theorem flags_eq : flags schema seed format =
    "fields" :: givenAs [("--schema", schema), ("--seed", toString seed), ("--format", format.name)] := rfl

section
variable [CommandReader] [LawfulCommandReader]

theorem read_flags (short : seed.natAbs < 10 ^ Literal.maxDigits) :
    CommandReader.read (flags schema seed format) = .ok (.fields ⟨none, some schema, some seed, some format, false⟩) := by
  rw [flags_eq]
  apply read_of_some (by simp [FieldsRequest.options])
  rw [ofValues?_flags, if_pos short]

theorem read_config (config : String) :
    CommandReader.read ["fields", "--config", config] = .ok (.fields ⟨some config, none, none, none, false⟩) := by
  have given : ["fields", "--config", config] = "fields" :: givenAs [("--config", config)] := rfl
  rw [given]
  apply read_of_some (by simp [FieldsRequest.options])
  simp [FieldsRequest.ofValues?, lastValue?]

variable [YamlReader]

/-- With a configuration the program may fail, but it is never used wrongly. -/
theorem exit_config (rooms : Rooms) (entropy : Entropy) (config : String) (tree : FileTree) :
    ((run rooms entropy ["fields", "--config", config] : StateM FileTree Ending) tree).1.exit? ≠ some 2 := by
  rw [run_fields (read_config config)]
  exact FieldsRequest.run_ne_misuse _ _ _ _

/-- A seed with more digits than are read is misuse. -/
theorem run_flags_of_long (long : ¬seed.natAbs < 10 ^ Literal.maxDigits) (rooms : Rooms) (entropy : Entropy)
    (tree : FileTree) : ∃ output, (run rooms entropy (flags schema seed format) : StateM FileTree Ending) tree =
      (.ok output, tree) ∧ output.exit = 2 := by
  have asked := @ofValues?_flags schema seed format
  rw [if_neg long] at asked
  obtain ⟨output, answered, misuse⟩ := read_of_none (by simp [FieldsRequest.options]) asked
  exact ⟨output, run_answered answered rooms entropy, misuse⟩

end

/-- A schema is found under its name and through a configuration by different paths, and what comes of it is the same,
if there is room enough for it both times. -/
theorem ofFound_eq_ofSource (path path' configuration : Path) {rooms : Rooms}
    (loads : rooms.loading.Suffices Selector.random (Twister.ofSeed seed) text)
    (lists : rooms.listing.Suffices Selector.random (Twister.ofSeed seed) text) (entropy entropy' : Entropy) :
    FieldsRequest.ofFound ⟨some config, none, none, none, false⟩ rooms entropy'
        ((SchemaSource.inFile path text).map fun schema => ⟨configuration, schema, some seed, format⟩) =
      FieldsRequest.ofSource ⟨none, some schema, some seed, some format, false⟩ rooms.listing entropy.listing
        (SchemaSource.inFile path' text) := by
  unfold SchemaSource.inFile
  cases read : schemaText text with
  | error error => rfl
  | ok told =>
    obtain ⟨_, rfl⟩ := schemaText_eq_ok_iff.mp read
    let found (path : Path) : SchemaSource := ⟨Listing.jsonSchemaType, told, some path⟩
    have given := @FieldsRequest.ofSource_of_seed ⟨none, some schema, some seed, some format, false⟩ rfl rooms.listing
      entropy.listing (found path') seed rfl
    have configured := @FieldsRequest.ofFound_of_seed ⟨some config, none, none, none, false⟩ rfl rooms entropy'
      ⟨configuration, found path, some seed, format⟩ seed rfl
    -- The path and the room are all in which the lists differ, and none depends on them.
    have alike : Ending.ofSchema rooms.loading (found path) seed format =
        Ending.ofSchema rooms.listing (found path') seed format := by
      have same := Listing.ofText_eq_of_suffices loads lists Listing.jsonSchemaType
      simp only [Ending.ofSchema, SchemaSource.listing, Option.getD_some, found, same]
    refine configured.trans (Eq.trans ?_ given.symm)
    split
    · rfl
    · exact alike

/-- The empty path leads to the working directory, which is no file. -/
theorem ne_empty_of_holds (home : tree.content? tree.directory = none)
    (given : tree.Holds (Path.ofString schema) place' source) : schema ≠ "" := by
  rintro rfl
  have here : tree.follow (Path.ofString "") = .ok tree.directory := rfl
  obtain ⟨bytes, stored, _⟩ := Option.bind_eq_some_iff.mp given.written
  cases here.symm.trans given.reached
  rw [home] at stored
  cases stored

/-- A configuration that says where the schema is, from which seed branches are chosen and in which format the list
is written gives what the same settings give on the command line, if there is room enough for the schema. There, a seed
may have only so many digits. -/
theorem run_flags [CommandReader] [LawfulCommandReader] [YamlReader]
    (configured : tree.Holds (Path.ofString config) place text) (value : YamlReader.read text = .ok (.mapping root))
    (told : ∀ key, Yaml.get? root key = Yaml.get? (settings schema seed format) key)
    (given : tree.Holds (Path.ofString schema) place' source)
    (same : tree.follow (tree.seenFrom (Path.ofString config) (Path.ofString schema)) = .ok place')
    (home : tree.content? tree.directory = none) (rooms : Rooms) (entropy entropy' : Entropy) :
    (seed.natAbs < 10 ^ Literal.maxDigits → rooms.loading.Suffices Selector.random (Twister.ofSeed seed) source →
        rooms.listing.Suffices Selector.random (Twister.ofSeed seed) source →
        (run rooms entropy (flags schema seed format) : StateM FileTree Ending) tree =
          (run rooms entropy' ["fields", "--config", config] : StateM FileTree Ending) tree) ∧
      (¬seed.natAbs < 10 ^ Literal.maxDigits →
        ∃ output, (run rooms entropy (flags schema seed format) : StateM FileTree Ending) tree = (.ok output, tree) ∧
          output.exit = 2) := by
  refine ⟨fun short loads lists => ?_, fun long => run_flags_of_long long rooms entropy tree⟩
  have finds := finds_of_settings configured value told (ne_empty_of_holds home given)
    (FileTree.hasNull_of_follow given.reached) ⟨same, given.written⟩
  rw [run_fields (read_flags short), run_fields (read_config config),
    FieldsRequest.run_config rfl rfl rfl rooms entropy' finds,
    FieldsRequest.run_schema rfl rfl rfl rooms entropy (SchemaSource.finds_load given),
    ofFound_eq_ofSource _ _ _ loads lists entropy]

theorem suffices_order {room : Room} (usual : room ∈ [Rooms.usual.loading, Rooms.usual.listing]) (seed : Int) :
    room.Suffices Selector.random (Twister.ofSeed seed) (String.ofList order) := by
  obtain ⟨leaves, listed⟩ := listed_order usual seed
  exact Listing.suffices_of_listed listed

/-- A configuration beside the shop, with a path that leads to the schema from both directories. -/
theorem run_flags_shop :
    let tree := shop order ["srv", "conf", "fields.yaml"] (written "../shop/order.json".toList "json".toList "-42".toList)
    tree.Holds (Path.ofString "../conf/fields.yaml") ["srv", "conf", "fields.yaml"]
        (String.ofList (written "../shop/order.json".toList "json".toList "-42".toList)) ∧
      tree.Holds (Path.ofString "../shop/order.json") ["srv", "shop", "order.json"] (String.ofList order) ∧
      (run .usual ⟨3, 5⟩ (flags "../shop/order.json" (-42) .json) : StateM FileTree Ending) tree =
        (run .usual ⟨7, 11⟩ ["fields", "--config", "../conf/fields.yaml"] : StateM FileTree Ending) tree := by
  intro tree
  have configured : tree.Holds (Path.ofString "../conf/fields.yaml") ["srv", "conf", "fields.yaml"]
      (String.ofList (written "../shop/order.json".toList "json".toList "-42".toList)) :=
    .ofPlain rfl rfl (isPlain_written rfl rfl rfl)
  have given : tree.Holds (Path.ofString "../shop/order.json") ["srv", "shop", "order.json"] (String.ofList order) :=
    .ofPlain rfl rfl (by rfl)
  have value := @read_written "../shop/order.json".toList "json".toList "-42".toList (-42) tokens_used.2
    (ofWord_used.1 "../shop/order.json" (by simp)) (ofWord_used.1 "json" (by simp)) (ofWord_used.2 "-42" (by simp)) rfl
  have loads : Rooms.usual.loading.Suffices Selector.random _ (String.ofList order) := suffices_order (by simp) (-42)
  have lists : Rooms.usual.listing.Suffices Selector.random _ (String.ofList order) := suffices_order (by simp) (-42)
  have both := run_flags configured value (get?_writtenRoot _ _ .json) given rfl rfl .usual ⟨3, 5⟩ ⟨7, 11⟩
  exact ⟨configured, given, both.1 (by decide +kernel) loads lists⟩

/-- A number in base sixteen with more digits in base ten than are read on the command line. -/
def hexadecimal : List Char := '0' :: 'x' :: '1' :: List.replicate 3600 '0'

set_option maxRecDepth 100000 in
theorem read_hexadecimal : YamlReader.read (String.ofList (written "order.json".toList "json".toList hexadecimal)) =
    .ok (.mapping (writtenRoot "order.json".toList "json".toList (16 ^ 3600))) := by
  have counted : (Yaml.intValue hexadecimal).toOption = some (16 ^ 3600) := by decide +kernel
  exact read_written (by decide +kernel) (ofWord_used.1 "order.json" (by simp)) (ofWord_used.1 "json" (by simp))
    (by decide +kernel)
    (eq_ok_of_toOption counted)

/-- In base sixteen a configuration gives a seed that the command line turns down. -/
theorem run_flags_hexadecimal :
    let tree := shop order ["srv", "shop", "fields.yaml"] (written "order.json".toList "json".toList hexadecimal)
    let configured := String.ofList (written "order.json".toList "json".toList hexadecimal)
    let root := writtenRoot "order.json".toList "json".toList (16 ^ 3600)
    tree.Holds (Path.ofString "fields.yaml") ["srv", "shop", "fields.yaml"] configured ∧
      YamlReader.read configured = .ok (.mapping root) ∧
      (∀ key, Yaml.get? root key = Yaml.get? (settings "order.json" (16 ^ 3600) .json) key) ∧
      tree.Holds (Path.ofString "order.json") ["srv", "shop", "order.json"] (String.ofList order) ∧
      tree.follow (tree.seenFrom (Path.ofString "fields.yaml") (Path.ofString "order.json")) =
        .ok ["srv", "shop", "order.json"] ∧
      ((run .usual ⟨3, 5⟩ ["fields", "--config", "fields.yaml"] : StateM FileTree Ending) tree).1.exit? ≠ some 2 ∧
      ((run .usual ⟨3, 5⟩ (flags "order.json" (16 ^ 3600) .json) : StateM FileTree Ending) tree).1.exit? = some 2 := by
  intro tree configured root
  have plain : Text.isPlain hexadecimal = true := by
    rw [hexadecimal, Text.isPlain, List.all_cons, List.all_cons, List.all_cons, List.all_replicate]
    rfl
  refine ⟨.ofPlain rfl rfl (isPlain_written rfl rfl plain), read_hexadecimal, get?_writtenRoot _ _ .json,
    .ofPlain rfl rfl (by rfl), rfl, exit_config _ _ _ tree, ?_⟩
  obtain ⟨output, ended, misuse⟩ := @run_flags_of_long "order.json" (16 ^ 3600) .json _ _ _ (by decide +kernel) .usual
    ⟨3, 5⟩ tree
  rw [ended]
  exact congrArg some misuse

end CommandLine
end FieldTree
