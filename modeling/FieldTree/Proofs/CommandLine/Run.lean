import FieldTree.CommandLine.Run
import FieldTree.Proofs.Configuration.Loading

/-! What comes of a request for the fields of a schema, once it is known what loading finds. -/

namespace FieldTree.CommandLine
open Loading

variable {tree : FileTree} {config name : String}

namespace Ending

/-- The list of a schema from a seed, or why there is none. -/
def ofSchema (room : Room) (schema : SchemaSource) (seed : Int) (format : ListFormat) : Ending :=
  match (schema.listing room (some seed) 0).result with
  | .ok leaves => .success (Listing.render format leaves) ""
  | .error cause => .failure "" (.listing cause)

/-- A schema without a list is reported alike, whether a configuration was to be checked or a list to be made. -/
theorem failure_ofListing (err : String) (cause : ListingFailure) :
    failure err (.configuration (.ofListing cause)) = failure err (.listing cause) := by
  cases cause <;> rfl

/-- The code that the program ends with, unless it breaks off. -/
def exit? (ending : Ending) : Option Nat := ending.toOption.map Output.exit

theorem exit_of_listed {room : Room} {schema : SchemaSource} {seed : Int} {format : ListFormat}
    (listed : (schema.listing room (some seed) 0).result.toBool = true) :
    (ofSchema room schema seed format).exit? = some 0 := by
  unfold ofSchema
  split
  · rfl
  next failed => rw [failed] at listed; cases listed

theorem exit_of_wrong {room : Room} {schema : SchemaSource} {seed : Int} {format : ListFormat} {error : ListingError}
    (wrong : (schema.listing room (some seed) 0).result = .error (.listing error)) :
    (ofSchema room schema seed format).exit? = some 1 := by
  rw [ofSchema, wrong]
  rfl

/-- No failure is misuse. -/
theorem failure_ne_misuse (err : String) (error : CommandError) : (failure err error).exit? ≠ some 2 := by
  unfold failure
  split <;> simp [exit?, Except.toOption]

end Ending

namespace FieldsRequest

variable {request : FieldsRequest}

theorem log_of_quiet (quiet : request.verbose = false) (events : List Event) : request.log events = "" := by
  simp [log, quiet]

theorem print_of_quiet (quiet : request.verbose = false) (room : Room) (entropy : Int) (before : List Event)
    (schema : SchemaSource) (seed : Int) (format : ListFormat) :
    request.print room entropy before ⟨schema, some seed, format⟩ = .ofSchema room schema seed format := by
  have same : schema.listing room (some seed) entropy = schema.listing room (some seed) 0 := rfl
  simp only [print, log_of_quiet quiet, same]
  rfl

theorem print_ne_misuse (room : Room) (entropy : Int) (before : List Event) (job : Job) :
    (request.print room entropy before job).exit? ≠ some 2 := by
  unfold print
  dsimp only
  split
  · simp [Ending.success, Ending.exit?, Except.toOption]
  · exact Ending.failure_ne_misuse _ _

/-- What comes of a job, or of the reason why there is none. -/
def outcome (request : FieldsRequest) (room : Room) (entropy : Int) : Except CommandError Job × List Event → Ending
  | (.ok job, before) => request.print room entropy before job
  | (.error error, before) => .failure (request.log before) error

/-- What comes of a configuration that was found, or not. Its schema has to give a list from its own seed. -/
def ofFound (request : FieldsRequest) (rooms : Rooms) (entropy : Entropy) :
    Except ConfigurationFailure Configuration → Ending
  | .error failure => .failure "" (.configuration failure)
  | .ok configuration =>
    match (configuration.schema.listing rooms.loading configuration.seed entropy.loading).result with
    | .ok _ => request.print rooms.listing entropy.listing [] (request.ofConfiguration configuration)
    | .error cause => .failure "" (.listing cause)

/-- What comes of a schema that was found, or not. -/
def ofSource (request : FieldsRequest) (room : Room) (entropy : Int) :
    Except ConfigurationFailure SchemaSource → Ending
  | .error failure => .failure "" (.configuration failure)
  | .ok schema => request.print room entropy [] (request.ofSchema schema)

/-- With a seed of its own, a configuration is turned down for what a list from that seed fails of. Otherwise the
request's seed comes before it. -/
theorem ofFound_of_seed (quiet : request.verbose = false) (rooms : Rooms) (entropy : Entropy)
    {configuration : Configuration} {own : Int} (seeded : configuration.seed = some own) :
    request.ofFound rooms entropy (.ok configuration) =
      if (configuration.schema.listing rooms.loading (some own) 0).result.toBool then
        .ofSchema rooms.listing configuration.schema (request.seed.getD own) (request.format.getD configuration.format)
      else .ofSchema rooms.loading configuration.schema own (request.format.getD configuration.format) := by
  have same : configuration.schema.listing rooms.loading (some own) entropy.loading =
      configuration.schema.listing rooms.loading (some own) 0 := rfl
  have counts : (request.seed <|> some own) = some (request.seed.getD own) := by cases request.seed <;> rfl
  simp only [ofFound, ofConfiguration, seeded, same, counts, print_of_quiet quiet]
  cases listed : (configuration.schema.listing rooms.loading (some own) 0).result with
  | ok leaves => rfl
  | error cause => simp only [Except.toBool, Bool.false_eq_true, if_false, Ending.ofSchema, listed]

theorem ofSource_of_seed (quiet : request.verbose = false) (room : Room) (entropy : Int) {schema : SchemaSource}
    {seed : Int} (seeded : request.seed = some seed) :
    request.ofSource room entropy (.ok schema) = .ofSchema room schema seed (request.format.getD .text) := by
  simp only [ofSource, ofSchema, seeded, print_of_quiet quiet]

variable [YamlReader]

theorem run_eq (request : FieldsRequest) (rooms : Rooms) (entropy : Entropy) (tree : FileTree) :
    (request.run rooms entropy : StateM FileTree Ending) tree =
      (request.outcome rooms.listing entropy.listing
          ((request.job rooms.loading entropy.loading : StateM FileTree _) tree).1,
        ((request.job rooms.loading entropy.loading : StateM FileTree _) tree).2) := by
  unfold run
  change StateT.bind _ _ tree = _
  rw [StateT.bind]
  cases (request.job rooms.loading entropy.loading : StateM FileTree _) tree with
  | mk known after =>
    obtain ⟨result, before⟩ := known
    cases result <;> rfl

/-- A request that was understood may fail, but the program is not used wrongly with it. -/
theorem run_ne_misuse (request : FieldsRequest) (rooms : Rooms) (entropy : Entropy) (tree : FileTree) :
    ((request.run rooms entropy : StateM FileTree Ending) tree).1.exit? ≠ some 2 := by
  rw [run_eq]
  rcases ((request.job rooms.loading entropy.loading : StateM FileTree _) tree).1 with ⟨job | error, before⟩
  · exact Ending.failure_ne_misuse _ _
  · exact print_ne_misuse _ _ _ _

theorem run_of_job {rooms : Rooms} {entropy : Entropy} {known : Except CommandError Job × List Event}
    (asked : (request.job rooms.loading entropy.loading : StateM FileTree _) tree = (known, tree)) :
    (request.run rooms entropy : StateM FileTree Ending) tree =
      (request.outcome rooms.listing entropy.listing known, tree) := by
  rw [run_eq, asked]

theorem run_config (asked : request.config = some config) (alone : request.schema = none)
    (quiet : request.verbose = false) (rooms : Rooms) (entropy : Entropy)
    {found : Except ConfigurationFailure Configuration}
    (finds : Finds tree (Configuration.document (Path.ofString config) >>= Configuration.ofYaml (Path.ofString config))
      found) :
    (request.run rooms entropy : StateM FileTree Ending) tree = (request.ofFound rooms entropy found, tree) := by
  have loaded := Configuration.load_of_finds finds rooms.loading entropy.loading
  have known : (request.job rooms.loading entropy.loading : StateM FileTree _) tree =
      ((((Configuration.judged rooms.loading entropy.loading found).result.map request.ofConfiguration).mapError
          .configuration,
        (Configuration.judged rooms.loading entropy.loading found).events), tree) := by
    unfold job
    rw [asked, alone]
    change StateT.bind _ _ tree = _
    rw [StateT.bind, loaded]
    rfl
  rw [run_of_job known]
  cases found with
  | error failure => simp [Configuration.judged, ofFound, outcome, Except.map, log_of_quiet quiet]
  | ok configuration =>
    simp only [Configuration.judged, Configuration.checked, ofFound]
    cases (configuration.schema.listing rooms.loading configuration.seed entropy.loading).result with
    | ok leaves => simp [outcome, Except.map, print, log_of_quiet quiet]
    | error cause => simp [outcome, Except.map, log_of_quiet quiet, Ending.failure_ofListing]

theorem run_schema (asked : request.schema = some name) (alone : request.config = none)
    (quiet : request.verbose = false) (rooms : Rooms) (entropy : Entropy)
    {source : Except ConfigurationFailure SchemaSource}
    (finds : Finds tree (SchemaSource.load (Path.ofString name)) source) :
    (request.run rooms entropy : StateM FileTree Ending) tree =
      (request.ofSource rooms.listing entropy.listing source, tree) := by
  have known : (request.job rooms.loading entropy.loading : StateM FileTree _) tree =
      (((source.map request.ofSchema).mapError .configuration, []), tree) := by
    unfold job
    rw [asked, alone]
    change StateT.bind _ _ tree = _
    rw [StateT.bind,
      show (SchemaSource.load (Path.ofString name) : Loading (StateM FileTree) _).run tree = (source, tree) from finds]
    rfl
  rw [run_of_job known]
  cases source <;> simp [outcome, ofSource, Except.map, log_of_quiet quiet]

end FieldsRequest

variable [YamlReader] [CommandReader]

theorem run_fields {texts : List String} {request : FieldsRequest}
    (asked : CommandReader.read texts = .ok (.fields request)) (rooms : Rooms) (entropy : Entropy) :
    (run rooms entropy texts : StateM FileTree Ending) tree =
      (request.run rooms entropy : StateM FileTree Ending) tree := by
  unfold run
  rw [asked]
  rfl

theorem run_answered {texts : List String} {output : Output} (answered : CommandReader.read texts = .error output)
    (rooms : Rooms) (entropy : Entropy) :
    (run rooms entropy texts : StateM FileTree Ending) tree = (.ok output, tree) := by
  unfold run
  rw [answered]
  rfl

end FieldTree.CommandLine
