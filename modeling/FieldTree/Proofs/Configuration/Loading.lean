import FieldTree.Configuration.Load
import FieldTree.Proofs.Files.Tree

/-! Loading on a tree of files: it looks at files, comes to a result, and leaves the tree as it is. -/

namespace FieldTree

variable {α β : Type} {tree first second : FileTree} {path : Path} {place : List String} {text : String}

namespace Loading

@[simp] theorem mapError_ok {ε δ : Type} (wrap : ε → δ) (value : α) :
    (Except.ok value).mapError wrap = .ok value := rfl

@[simp] theorem mapError_error {ε δ : Type} (wrap : ε → δ) (error : ε) :
    (Except.error error : Except ε α).mapError wrap = .error (wrap error) := rfl

/-- On the tree the loading comes to the result, and the tree stays as it is. -/
def Finds (tree : FileTree) (loading : Loading (StateM FileTree) α) (result : Except ConfigurationFailure α) : Prop :=
  loading.run tree = (result, tree)

theorem run_bind (loading : Loading (StateM FileTree) α) (rest : α → Loading (StateM FileTree) β) (tree : FileTree) :
    (loading >>= rest).run tree = match loading.run tree with
      | (.ok value, after) => (rest value).run after
      | (.error failure, after) => (.error failure, after) := by
  rw [ExceptT.run_bind]
  change StateT.bind _ _ tree = _
  rw [StateT.bind]
  cases loading.run tree with
  | mk result after => cases result <;> rfl

theorem finds_pure (tree : FileTree) (value : α) : Finds tree (pure value) (.ok value) := rfl

theorem finds_throw (tree : FileTree) (failure : ConfigurationFailure) :
    Finds tree (throw failure : Loading (StateM FileTree) α) (.error failure) := rfl

theorem Finds.unique {loading : Loading (StateM FileTree) α} {result result' : Except ConfigurationFailure α}
    (finds : Finds tree loading result) (finds' : Finds tree loading result') : result = result' :=
  (Prod.mk.inj (finds.symm.trans finds')).1

theorem Finds.andThen {loading : Loading (StateM FileTree) α} {rest : α → Loading (StateM FileTree) β} {value : α}
    {result : Except ConfigurationFailure β} (finds : Finds tree loading (.ok value))
    (later : Finds tree (rest value) result) : Finds tree (loading >>= rest) result := by
  unfold Finds at finds later ⊢
  rw [run_bind, finds]
  exact later

theorem Finds.fails {loading : Loading (StateM FileTree) α} {failure : ConfigurationFailure}
    (finds : Finds tree loading (.error failure)) (rest : α → Loading (StateM FileTree) β) :
    Finds tree (loading >>= rest) (.error failure) := by
  unfold Finds at finds ⊢
  rw [run_bind, finds]

theorem finds_orFail (tree : FileTree) (result : Except ConfigurationError α) :
    Finds tree (orFail result) (result.mapError .configuration) := by
  cases result <;> rfl

theorem finds_asked {look : StateM FileTree (Except FileError α)} {answer : Except FileError α}
    (looked : look tree = (answer, tree)) : Finds tree (asked look) (answer.mapError .file) := by
  have lifted : Finds tree (liftM look) (.ok answer) := by
    have run : (liftM look : Loading (StateM FileTree) (Except FileError α)).run tree =
      (.ok (look tree).1, (look tree).2) := rfl
    rw [Finds, run, looked]
  apply lifted.andThen
  cases answer <;> rfl

theorem finds_status (tree : FileTree) (path : Path) :
    Finds tree (asked (FileAccess.status path)) ((tree.status path).mapError .file) := finds_asked rfl

theorem finds_read (tree : FileTree) (path : Path) :
    Finds tree (asked (FileAccess.read path)) ((tree.read path).mapError .file) := finds_asked rfl

/-- What is found of a file that holds a text: the file is there, and its bytes are the text. -/
theorem finds_of_holds (holds : tree.Holds path place text) :
    Finds tree (asked (FileAccess.status path)) (.ok .file) ∧
      ∃ bytes, Finds tree (asked (FileAccess.read path)) (.ok bytes) ∧ textOfBytes? bytes = some text := by
  obtain ⟨bytes, reads, decoded⟩ := holds.read
  have status := finds_status tree path
  have read := finds_read tree path
  rw [holds.status] at status
  rw [reads] at read
  exact ⟨status, bytes, read, decoded⟩

theorem finds_resolve (tree : FileTree) (plain : path.hasNull = false) :
    Finds tree (asked (FileAccess.resolve path)) (.ok (Path.resolve ⟨"/", tree.directory⟩ path)) := by
  unfold FileAccess.resolve
  rw [plain]
  exact finds_asked rfl

theorem finds_schemaFile (holds : tree.Holds path place text) : Finds tree (schemaFile path) (.ok text) := by
  obtain ⟨status, bytes, read, decoded⟩ := finds_of_holds holds
  refine status.andThen (read.andThen ?_)
  rw [decoded]
  exact finds_pure tree text

/-! Two trees -/

/-- On both trees the loading comes to one result. -/
def Alike (first second : FileTree) (loading : Loading (StateM FileTree) α) : Prop :=
  ∃ result, Finds first loading result ∧ Finds second loading result

theorem Alike.bind {loading : Loading (StateM FileTree) α} {rest : α → Loading (StateM FileTree) β}
    (alike : Alike first second loading) (later : ∀ value, Alike first second (rest value)) :
    Alike first second (loading >>= rest) := by
  obtain ⟨result, finds, finds'⟩ := alike
  cases result with
  | ok value =>
    obtain ⟨result, after, after'⟩ := later value
    exact ⟨result, finds.andThen after, finds'.andThen after'⟩
  | error failure => exact ⟨_, finds.fails rest, finds'.fails rest⟩

theorem Alike.andThen {loading : Loading (StateM FileTree) α} {rest : α → Loading (StateM FileTree) β} {value : α}
    (finds : Finds first loading (.ok value)) (finds' : Finds second loading (.ok value))
    (later : Alike first second (rest value)) : Alike first second (loading >>= rest) := by
  obtain ⟨result, after, after'⟩ := later
  exact ⟨result, finds.andThen after, finds'.andThen after'⟩

theorem alike_pure (value : α) : Alike first second (pure value) := ⟨_, finds_pure first value, finds_pure second value⟩

theorem alike_throw (failure : ConfigurationFailure) :
    Alike first second (throw failure : Loading (StateM FileTree) α) :=
  ⟨_, finds_throw first failure, finds_throw second failure⟩

theorem alike_orFail (result : Except ConfigurationError α) : Alike first second (orFail result) :=
  ⟨_, finds_orFail first result, finds_orFail second result⟩

theorem alike_schemaFile (alike : FileTree.AlikeBut place first second) (elsewhere : first.follow path ≠ .ok place) :
    Alike first second (schemaFile path) := by
  have status : Alike first second (asked (FileAccess.status path)) :=
    ⟨_, finds_status first path, alike.status path ▸ finds_status second path⟩
  have read : Alike first second (asked (FileAccess.read path)) :=
    ⟨_, finds_read first path, alike.read elsewhere ▸ finds_read second path⟩
  apply status.bind
  intro status
  split
  · apply read.bind
    intro bytes
    cases textOfBytes? bytes with
    | none => exact alike_throw _
    | some text => exact alike_pure text
  · exact alike_throw _

end Loading

namespace SchemaSource
open Loading

/-- The schema that stands in a file, if there is anything in it. -/
def inFile (path : Path) (text : String) : Except ConfigurationFailure SchemaSource :=
  ((Configuration.schemaText text).mapError .configuration).map fun text => ⟨Listing.jsonSchemaType, text, some path⟩

theorem finds_load (holds : tree.Holds path place text) :
    Finds tree (SchemaSource.load path) (inFile (Path.resolve ⟨"/", tree.directory⟩ path) text) := by
  have resolve := finds_resolve tree (FileTree.hasNull_of_follow holds.reached)
  refine (finds_schemaFile holds).andThen ?_
  unfold inFile
  cases Configuration.schemaText text with
  | error error => exact (finds_orFail tree (.error error)).fails _
  | ok text => exact (finds_orFail tree (.ok text)).andThen (resolve.andThen rfl)

theorem finds_inFile (holds : tree.Holds path place text) :
    Finds tree (do
      let content ← schemaFile path
      return ⟨Listing.jsonSchemaType, ← orFail (Configuration.schemaText content), some path⟩) (inFile path text) := by
  refine (finds_schemaFile holds).andThen ?_
  unfold inFile
  cases Configuration.schemaText text with
  | error error => exact (finds_orFail tree (.error error)).fails _
  | ok text => exact (finds_orFail tree (.ok text)).andThen rfl

theorem alike_inFile (alike : FileTree.AlikeBut place first second) (elsewhere : first.follow path ≠ .ok place) :
    Alike first second (do
      let content ← schemaFile path
      return (⟨Listing.jsonSchemaType, ← orFail (Configuration.schemaText content), some path⟩ : SchemaSource)) :=
  (alike_schemaFile alike elsewhere).bind fun _ => (alike_orFail _).bind fun _ => alike_pure _

/-- A path in a configuration is seen from the directory of the configuration. -/
theorem finds_ofPlace {configuration : Path} {name : String} (based : configuration.hasNull = false)
    (named : (Path.ofString name).hasNull = false)
    (holds : tree.Holds (tree.seenFrom configuration (Path.ofString name)) place text) :
    Finds tree (SchemaSource.ofPlace configuration.parent (.file name))
      (inFile (tree.seenFrom configuration (Path.ofString name)) text) := by
  have schema := finds_inFile holds
  unfold SchemaSource.ofPlace
  unfold FileTree.seenFrom at *
  dsimp only
  split at schema
  · next absolute =>
    rw [if_pos absolute, if_pos absolute]
    exact schema
  · next relative =>
    rw [if_neg relative, if_neg relative]
    exact (finds_resolve tree (FileTree.hasNull_join_parent based named)).andThen schema

/-- Unless the schema stands in the one file in which two trees differ, a configuration finds the same in both. -/
theorem alike_ofPlace {configuration : Path} (alike : FileTree.AlikeBut place first second) (source : SchemaPlace)
    (elsewhere : ∀ name, source = .file name →
      first.follow (first.seenFrom configuration (Path.ofString name)) ≠ .ok place) :
    Alike first second (SchemaSource.ofPlace configuration.parent source) := by
  cases source with
  | inline text => exact (alike_orFail _).bind fun _ => alike_pure _
  | file name =>
    have schema := alike_inFile alike (elsewhere name rfl)
    unfold SchemaSource.ofPlace
    unfold FileTree.seenFrom at schema
    dsimp only
    split at schema
    · next absolute =>
      rw [if_pos absolute]
      exact schema
    · next relative =>
      rw [if_neg relative]
      cases null : (configuration.parent.join (Path.ofString name)).hasNull with
      | true =>
        unfold FileAccess.resolve
        rw [null]
        exact ⟨_, (finds_asked rfl).fails _, (finds_asked rfl).fails _⟩
      | false =>
        have resolve' := finds_resolve second null
        rw [← alike.directory] at resolve'
        exact Alike.andThen (finds_resolve first null) resolve' schema

end SchemaSource

namespace Configuration
open Loading

/-- The schema that the root of a configuration speaks of. -/
def source {m : Type → Type} [Monad m] [FileAccess m] (path : Path) (root : List (Yaml × Yaml)) :
    Loading m SchemaSource := do
  SchemaSource.ofPlace path.parent (← orFail (schemaPlace root))

variable {value : Yaml} {root root' : List (Yaml × Yaml)} {seed : Option Int}

/-- Two trees that differ in the configuration itself have the same schema for it. -/
theorem alike_source (alike : FileTree.AlikeBut place first second)
    (elsewhere : ∀ name, schemaPlace root = .ok (.file name) →
      first.follow (first.seenFrom path (Path.ofString name)) ≠ .ok place) :
    Alike first second (source path root) := by
  unfold source
  cases known : schemaPlace root with
  | error error => exact ⟨_, (finds_orFail first (.error error)).fails _, (finds_orFail second (.error error)).fails _⟩
  | ok told =>
    refine Alike.andThen (finds_orFail first (.ok told)) (finds_orFail second (.ok told)) ?_
    exact SchemaSource.alike_ofPlace alike told fun name same => elsewhere name (by rw [known, same])

theorem finds_document [YamlReader] (holds : tree.Holds path place text) (parsed : YamlReader.read text = .ok value) :
    Finds tree (document path) (.ok value) := by
  obtain ⟨status, bytes, read, decoded⟩ := finds_of_holds holds
  refine status.andThen (read.andThen ?_)
  rw [decoded]
  simp only [parsed]
  exact finds_pure tree value

/-- Where the seed is known, what is left to find of a configuration are its schema and its format. -/
theorem finds_ofYaml {schema : Except ConfigurationFailure SchemaSource} (rooted : rootOf value = .ok root)
    (finds : Finds tree (source path root) schema) (seeded : seedOf root = .ok seed) :
    Finds tree (ofYaml path value) (do
      let schema ← schema
      let format ← (formatOf root).mapError .configuration
      return { path, schema, seed, format }) := by
  unfold ofYaml
  rw [rooted]
  refine (finds_orFail tree (.ok root)).andThen ?_
  unfold source at finds
  cases placed : schemaPlace root with
  | error error =>
    rw [placed] at finds
    have missing := finds.unique ((finds_orFail tree (.error error)).fails _)
    rw [missing]
    exact (finds_orFail tree (.error error)).fails _
  | ok place =>
    rw [placed] at finds
    have found : Finds tree (SchemaSource.ofPlace path.parent place) schema := finds
    refine (finds_orFail tree (.ok place)).andThen ?_
    cases schema with
    | error failure => exact found.fails _
    | ok schema =>
      refine found.andThen ?_
      rw [seeded]
      refine (finds_orFail tree (.ok seed)).andThen ?_
      cases formatOf root with
      | error error => exact (finds_orFail tree (.error error)).fails _
      | ok format => exact (finds_orFail tree (.ok format)).andThen rfl

/-- What comes of a configuration that was found, or not. -/
def judged (room : Room) (entropy : Int) : Except ConfigurationFailure Configuration → Loaded
  | .ok configuration => configuration.checked room entropy
  | .error failure => ⟨.error failure, []⟩

theorem load_of_finds [YamlReader] {result : Except ConfigurationFailure Configuration}
    (finds : Finds tree (document path >>= ofYaml path) result) (room : Room) (entropy : Int) :
    (load room entropy path : StateM FileTree Loaded) tree = (judged room entropy result, tree) := by
  unfold load
  change StateT.bind _ _ tree = _
  rw [StateT.bind, show (document path >>= ofYaml path : Loading (StateM FileTree) Configuration).run tree = _ from finds]
  cases result <;> rfl

/-! What is read of the root -/

theorem schemaPlace_congr (same : Yaml.get? root "schema" = Yaml.get? root' "schema") :
    schemaPlace root = schemaPlace root' := by
  simp only [schemaPlace, same]

theorem seedOf_congr (same : Yaml.get? root "resolution" = Yaml.get? root' "resolution") :
    seedOf root = seedOf root' := by
  simp only [seedOf, same]

theorem formatOf_congr (same : Yaml.get? root "output" = Yaml.get? root' "output") :
    formatOf root = formatOf root' := by
  simp only [formatOf, same]

end Configuration
end FieldTree
