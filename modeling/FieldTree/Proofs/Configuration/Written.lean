import FieldTree.Proofs.Configuration.Loading
import FieldTree.Proofs.Number.Literal
import FieldTree.Proofs.Resolution.Choiceless
import FieldTree.Surroundings

/-! A configuration in writing, and what is read of it. -/

namespace FieldTree.Configuration
open Yaml

/-- The text of a configuration, by the words for the path of the schema, for the format and for the seed. -/
def written (path format seed : List Char) : List Char :=
  "schema:\n  json_schema:\n    path: ".toList ++ path ++ "\noutput:\n  format: ".toList ++ format ++
    "\nresolution:\n  seed: ".toList ++ seed

theorem isPlain_written {path format seed : List Char} (path_plain : Text.isPlain path = true)
    (format_plain : Text.isPlain format = true) (seed_plain : Text.isPlain seed = true) :
    Text.isPlain (written path format seed) = true := by
  have schema_plain : Text.isPlain "schema:\n  json_schema:\n    path: ".toList = true := rfl
  have output_plain : Text.isPlain "\noutput:\n  format: ".toList = true := rfl
  have resolution_plain : Text.isPlain "\nresolution:\n  seed: ".toList = true := rfl
  unfold written
  repeat rw [Text.isPlain_append]
  rw [schema_plain, path_plain, output_plain, format_plain, resolution_plain, seed_plain]
  rfl

def word (text : String) : Token := .word text.toList

def writtenTokens (path format seed : List Char) : List Token := [
  .openMapping, .key, word "schema", .value,
    .openMapping, .key, word "json_schema", .value,
      .openMapping, .key, word "path", .value, .word path, .closeBlock, .closeBlock,
  .key, word "output", .value,
    .openMapping, .key, word "format", .value, .word format, .closeBlock,
  .key, word "resolution", .value,
    .openMapping, .key, word "seed", .value, .word seed, .closeBlock, .closeBlock, .textEnd]

/-- The node of a word that stands for itself. -/
def plain (word : List Char) : Node := (⟨none, none⟩ : Reader.Properties).scalar false (String.ofList word)

def writtenNode (path format seed : List Char) : Node :=
  .mapping .map [
    (plain "schema".toList, .mapping .map [(plain "json_schema".toList, .mapping .map [(plain "path".toList, plain path)])]),
    (plain "output".toList, .mapping .map [(plain "format".toList, plain format)]),
    (plain "resolution".toList, .mapping .map [(plain "seed".toList, plain seed)])]

theorem run_writtenTokens (path format seed : List Char) :
    (Reader.document 288).run ⟨writtenTokens path format seed, [], []⟩ =
      .ok (writtenNode path format seed, ⟨[], [], []⟩) := by
  rfl

theorem plain_of_tag {word : List Char} {tag : Tag} (tagged : Tag.ofWord word = tag) :
    plain word = .scalar tag (String.ofList word) := by
  simp [plain, Reader.Properties.scalar, Reader.Properties.tagOr, String.toList_ofList, tagged]

def writtenRoot (path format : List Char) (seed : Int) : List (Yaml × Yaml) := [
  (.string "schema", .mapping [(.string "json_schema", .mapping [(.string "path", .string (String.ofList path))])]),
  (.string "output", .mapping [(.string "format", .string (String.ofList format))]),
  (.string "resolution", .mapping [(.string "seed", .number (.int seed))])]

/-! The three sections of a configuration, with the schema under some key -/

def sectionsNode (key : String) (schema format seed : Node) : Node :=
  .mapping .map [
    (plain "schema".toList, .mapping .map [(plain "json_schema".toList, .mapping .map [(plain key.toList, schema)])]),
    (plain "output".toList, .mapping .map [(plain "format".toList, format)]),
    (plain "resolution".toList, .mapping .map [(plain "seed".toList, seed)])]

def sectionsRoot (key schema format : String) (seed : Int) : List (Yaml × Yaml) := [
  (.string "schema", .mapping [(.string "json_schema", .mapping [(.string key, .string schema)])]),
  (.string "output", .mapping [(.string "format", .string format)]),
  (.string "resolution", .mapping [(.string "seed", .number (.int seed))])]

/-- The words that are used here are what they look like. -/
theorem ofWord_used :
    (∀ name ∈ ["path", "inline", "schema", "json_schema", "output", "format", "resolution", "seed", "json", "text",
      "order.json", "../shop/order.json"], Tag.ofWord name.toList = .str) ∧
      ∀ digits ∈ ["1", "7", "-3", "-42"], Tag.ofWord digits.toList = .int := by
  decide +kernel

theorem read_sectionsNode {key schema format seed : String} {value : Int} (known : key ∈ ["path", "inline"])
    (counted : intValue seed.toList = .ok value) :
    (sectionsNode key (.scalar .str schema) (.scalar .str format) (.scalar .int seed)).read 36 =
      .ok (.mapping (sectionsRoot key schema format value)) := by
  have keys : ∀ name ∈ ["path", "inline", "schema", "json_schema", "output", "format", "resolution", "seed"],
      plain name.toList = .scalar .str name := by
    intro name listed
    rw [plain_of_tag (ofWord_used.1 name (List.mem_append_left _ listed)), String.ofList_toList]
  have keyed := keys key (List.mem_append_left _ known)
  simp only [sectionsNode, keyed, keys, List.mem_cons, true_or, or_true]
  simp [sectionsRoot, Node.read, Node.merged, Node.mergedEntries, Node.mappingOf, Node.mergeEntries, Node.isMergeKey,
    Node.asKey, Node.checkLevels, Node.lookInto, Node.lookInto.inside, Node.meetEntry, Node.meet, Node.tag,
    Tag.isCollection, List.flatMapM, List.flatMapM.loop, Node.value, Node.entryValues, Tag.scalarValue, counted, bind,
    Except.bind, pure, Except.pure, Except.map]

theorem read_writtenNode {path format seed : List Char} {value : Int} (named : Tag.ofWord path = .str)
    (formatted : Tag.ofWord format = .str) (numbered : Tag.ofWord seed = .int) (counted : intValue seed = .ok value) :
    (writtenNode path format seed).read 36 = .ok (.mapping (writtenRoot path format value)) := by
  have sections : writtenNode path format seed = sectionsNode "path" (plain path) (plain format) (plain seed) := rfl
  rw [sections, plain_of_tag named, plain_of_tag formatted, plain_of_tag numbered]
  exact read_sectionsNode List.mem_cons_self (String.toList_ofList.symm ▸ counted)

theorem eq_ok_of_toOption {ε α : Type} {result : Except ε α} {value : α} (given : result.toOption = some value) :
    result = .ok value := by
  cases result with
  | error error => cases given
  | ok other => rw [Option.some.inj given]

theorem exists_of_toBool {ε α : Type} {result : Except ε α} (good : result.toBool = true) :
    ∃ value, result = .ok value := by
  cases result with
  | error error => cases good
  | ok value => exact ⟨value, rfl⟩

/-- A text is read by its tokens, and by the node that they make. -/
theorem read_of_tokens {chars : List Char} {tokens : List Token} {node : Node} {rest : ReaderState} {value : Yaml}
    (told : Token.ofChars chars = tokens)
    (run : (Reader.document (8 * tokens.length + 8)).run ⟨tokens, [], []⟩ = .ok (node, rest))
    (valued : node.read (tokens.length + 1) = .ok value) : YamlReader.read (String.ofList chars) = .ok value := by
  change Yaml.read (String.ofList chars) = .ok value
  unfold Yaml.read
  rw [String.toList_ofList, told]
  dsimp only
  rw [run]
  exact valued

/-- The words are read back, if each is a word of its kind. -/
theorem read_written {path format seed : List Char} {value : Int}
    (tokens : Token.ofChars (written path format seed) = writtenTokens path format seed)
    (named : Tag.ofWord path = .str) (formatted : Tag.ofWord format = .str) (numbered : Tag.ofWord seed = .int)
    (counted : intValue seed = .ok value) :
    YamlReader.read (String.ofList (written path format seed)) = .ok (.mapping (writtenRoot path format value)) :=
  read_of_tokens tokens (run_writtenTokens path format seed) (read_writtenNode named formatted numbered counted)

theorem strip_ne_empty {chars : List Char} {c : Char} (among : c ∈ chars) (told : Text.isBlank c = false) :
    Text.strip (String.ofList chars) ≠ "" := by
  intro empty
  rw [Text.strip, String.toList_ofList] at empty
  exact Text.trimBy_ne_nil among told (String.ofList_injective empty)

theorem tokens_used :
    (∀ digits ∈ ["1", "7", "-3"], Token.ofChars (written "order.json".toList "text".toList digits.toList) =
      writtenTokens "order.json".toList "text".toList digits.toList) ∧
      Token.ofChars (written "../shop/order.json".toList "json".toList "-42".toList) =
        writtenTokens "../shop/order.json".toList "json".toList "-42".toList := by
  decide +kernel

/-- A schema in the working directory of a shop, and a configuration at some place. -/
def shop (schema : List Char) (place : List String) (configuration : List Char) : FileTree :=
  FileTree.put ⟨["srv", "shop"], [(["srv", "shop", "order.json"], Text.asciiBytes schema)]⟩ place
    (Text.asciiBytes configuration)

/-- A schema without choices. -/
def order : List Char := "\x7b\"properties\": \x7b\"id\": \x7b\"type\": \"string\"\x7d\x7d\x7d".toList

/-- Whatever the seed. -/
theorem listed_order {room : Room} (usual : room ∈ [CommandLine.Rooms.usual.loading, CommandLine.Rooms.usual.listing])
    (seed : Int) :
    ∃ leaves, (Listing.ofText room Selector.random (Twister.ofSeed seed) Listing.jsonSchemaType
      (String.ofList order)).result = .ok leaves := by
  have checked : ∀ root ∈ (Document.text (String.ofList order)).root.toOption,
      ∀ part ∈ (Json.object root).parts, part.offersChoice = false := by decide +kernel
  have choiceless : (Document.text (String.ofList order)).Choiceless :=
    fun root rooted => checked root (by rw [rooted]; rfl)
  have listed : ∀ room ∈ [CommandLine.Rooms.usual.loading, CommandLine.Rooms.usual.listing],
      (Listing.ofResolved room Listing.jsonSchemaType
        ((Document.text (String.ofList order)).resolveWithin room.nodes Selector.first ()).result).toBool = true := by
    decide +kernel
  obtain ⟨leaves, listed⟩ := exists_of_toBool (listed room usual)
  rw [Document.result_of_choiceless choiceless room.nodes Selector.first () Selector.random
    (Twister.ofSeed seed)] at listed
  exact ⟨leaves, listed⟩

/-- A configuration with a schema in it. Quotes keep the braces of the schema and the blanks of the format. -/
def inlined (schema : List Char) : List Char :=
  "schema:\n  json_schema:\n    inline: '".toList ++ schema ++
    "'\noutput:\n  format: ' Json '\nresolution:\n  seed: 7".toList

def inlinedTokens (schema : List Char) : List Token := [
  .openMapping, .key, word "schema", .value,
    .openMapping, .key, word "json_schema", .value,
      .openMapping, .key, word "inline", .value, .text (String.ofList schema), .closeBlock, .closeBlock,
  .key, word "output", .value,
    .openMapping, .key, word "format", .value, .text " Json ", .closeBlock,
  .key, word "resolution", .value,
    .openMapping, .key, word "seed", .value, word "7", .closeBlock, .closeBlock, .textEnd]

theorem read_inlined {schema : List Char} (told : Token.ofChars (inlined schema) = inlinedTokens schema) :
    YamlReader.read (String.ofList (inlined schema)) =
      .ok (.mapping (sectionsRoot "inline" (String.ofList schema) " Json " 7)) := by
  have numbered : plain "7".toList = .scalar .int "7" := plain_of_tag (ofWord_used.2 "7" (by simp))
  have run : (Reader.document 288).run ⟨inlinedTokens schema, [], []⟩ =
      .ok (sectionsNode "inline" (.scalar .str (String.ofList schema)) (.scalar .str " Json ") (plain "7".toList),
        ⟨[], [], []⟩) := by rfl
  rw [numbered] at run
  exact read_of_tokens told run (read_sectionsNode (by decide) rfl)

end FieldTree.Configuration
