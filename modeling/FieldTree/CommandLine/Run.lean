import FieldTree.CommandLine.Command
import FieldTree.Configuration.Load
import FieldTree.Configuration.Template
/-! What the commands do, and what they print. An error that the program does not expect ends it. -/

namespace FieldTree

/-- An error that the program does not expect. -/
inductive Unexpected
  | value (fault : Yaml.Fault)
  | field (error : FieldError)
  | file (error : FileError)
  | noRoom

def Unexpected.message : Unexpected → String
  | .value fault => fault.message
  | .field error => error.message
  | .file error => error.message
  | .noRoom => noRoomMessage

/-- What there is in a failure that the program does not expect. It tells of all others. -/
def ListingFailure.unexpected? : ListingFailure → Option Unexpected
  | .listing _ => none
  | .choice _ => none
  | .field error => if error.isValueError then none else some (.field error)
  | .noRoom => some .noRoom

def ConfigurationFailure.unexpected? : ConfigurationFailure → Option Unexpected
  | .configuration _ => none
  | .file _ => none
  | .value fault => if fault.isValueError then none else some (.value fault)
  | .choice _ => none
  | .field error => if error.isValueError then none else some (.field error)
  | .noRoom => some .noRoom

/-- A path with the null character in it is not expected where the template is to be written. -/
def Template.WriteError.unexpected? : Template.WriteError → Option Unexpected
  | .exists _ => none
  | .file .nullCharacter => some (.file .nullCharacter)
  | .file _ => none

namespace CommandLine

/-- Why a command fails. -/
inductive CommandError
  | notOneSource
  | configuration (cause : ConfigurationFailure)
  | listing (cause : ListingFailure)
  | template (cause : Template.WriteError)

def CommandError.message : CommandError → String
  | .notOneSource => "Provide exactly one of --config or --schema."
  | .configuration cause => cause.message?.getD ""
  | .listing cause => cause.message?.getD ""
  | .template cause => cause.message

def CommandError.unexpected? : CommandError → Option Unexpected
  | .notOneSource => none
  | .configuration cause => cause.unexpected?
  | .listing cause => cause.unexpected?
  | .template cause => cause.unexpected?

/-- What comes of a command, unless an error that is not expected ends it. -/
abbrev Ending := Except Unexpected Output

namespace Ending

def success (out err : String) : Ending := .ok ⟨0, out ++ "\n", err⟩

/-- The message of a failure follows what was logged. -/
def failure (err : String) (error : CommandError) : Ending :=
  match error.unexpected? with
  | some cause => .error cause
  | none => .ok ⟨1, "", err ++ error.message ++ "\n"⟩

end Ending

/-- The seeds from which branches are chosen where none is given: while a configuration is loaded, and while
the list is made. -/
structure Entropy where
  loading : Int
  listing : Int

/-- What is left of the stack while a configuration is loaded, and while the list is made. -/
structure Rooms where
  loading : Room
  listing : Room

def logLine (event : Event) : String :=
  "DEBUG schema_field_resolver.schema_resolution.json_schema_resolver: " ++ event.message ++ "\n"

/-- What is to be listed, from which seed, and in which format. -/
structure Job where
  schema : SchemaSource
  seed : Option Int
  format : ListFormat

variable {m : Type → Type} [Monad m] [FileAccess m]

namespace FieldsRequest

/-- What is said on the command line comes before what is configured. -/
def ofConfiguration (request : FieldsRequest) (configuration : Configuration) : Job where
  schema := configuration.schema
  seed := request.seed <|> configuration.seed
  format := request.format.getD configuration.format

def ofSchema (request : FieldsRequest) (schema : SchemaSource) : Job := ⟨schema, request.seed, request.format.getD .text⟩

/-- The job, and what happened until it was known. -/
def job [YamlReader] (request : FieldsRequest) (room : Room) (entropy : Int) :
    m (Except CommandError Job × List Event) := do
  match request.config, request.schema with
  | some config, none =>
    let loaded ← Configuration.load room entropy (Path.ofString config)
    return ((loaded.result.map request.ofConfiguration).mapError .configuration, loaded.events)
  | none, some schema =>
    let source ← (SchemaSource.load (Path.ofString schema)).run
    return ((source.map request.ofSchema).mapError .configuration, [])
  | _, _ => return (.error .notOneSource, [])

def log (request : FieldsRequest) (events : List Event) : String :=
  if request.verbose then String.join (events.map logLine) else ""

/-- Prints the list of a job. -/
def print (request : FieldsRequest) (room : Room) (entropy : Int) (before : List Event) (job : Job) : Ending :=
  let outcome := job.schema.listing room job.seed entropy
  let log := request.log (before ++ outcome.events)
  match outcome.result with
  | .ok leaves => .success (Listing.render job.format leaves) log
  | .error cause => .failure log (.listing cause)

def run [YamlReader] (request : FieldsRequest) (rooms : Rooms) (entropy : Entropy) : m Ending := do
  match ← request.job rooms.loading entropy.loading with
  | (.ok job, before) => return request.print rooms.listing entropy.listing before job
  | (.error error, before) => return .failure (request.log before) error

end FieldsRequest

/-- Tells where the template was written. -/
def generate (output : String) : m Ending := do
  match ← Template.write (Path.ofString output) with
  | .ok path => return .success path.text ""
  | .error error => return .failure "" (.template error)

def Command.run [YamlReader] (rooms : Rooms) (entropy : Entropy) : Command → m Ending
  | .fields request => request.run rooms entropy
  | .generate output => CommandLine.generate output

/-- The program: what it prints for its arguments, and the code it ends with. -/
def run [YamlReader] [CommandReader] (rooms : Rooms) (entropy : Entropy) (texts : List String) : m Ending :=
  match CommandReader.read texts with
  | .ok command => command.run rooms entropy
  | .error output => return .ok output

end CommandLine
end FieldTree
