import FieldTree.Configuration.Basic
import FieldTree.Files.Access
/-! Configurations and schemas from files. A configuration is good only if its schema gives a list. -/

namespace FieldTree

/-- How the text of a configuration is read. -/
class YamlReader where
  read : String → Except Yaml.Fault Yaml

variable {m : Type → Type} [Monad m] [FileAccess m]
open FileAccess

abbrev Loading (m : Type → Type) := ExceptT ConfigurationFailure m

namespace Loading

def orFail {α : Type} : Except ConfigurationError α → Loading m α
  | .ok value => pure value
  | .error error => throw (.configuration error)

/-- What a file is asked for. -/
def asked {α : Type} (answer : m (Except FileError α)) : Loading m α := do
  match ← (answer : m _) with
  | .ok value => return value
  | .error error => throw (.file error)

def schemaFile (path : Path) : Loading m String := do
  if (← asked (status path)) = .file then
    match textOfBytes? (← asked (read path)) with
    | some text => return text
    | none => throw (.configuration (.schemaNotText path))
  else throw (.configuration (.schemaNotFound path))

end Loading

namespace SchemaSource
open Loading

/-- A schema in a file of its own. -/
def load (path : Path) : Loading m SchemaSource := do
  let text ← orFail (Configuration.schemaText (← schemaFile path))
  return ⟨Listing.jsonSchemaType, text, some (← asked (FileAccess.resolve path))⟩

/-- The schema that a configuration speaks of. Its path is seen from the directory of the configuration. -/
def ofPlace (base : Path) : SchemaPlace → Loading m SchemaSource
  | .inline text => return ⟨Listing.jsonSchemaType, ← orFail (Configuration.schemaText text), none⟩
  | .file text => do
    let path := Path.ofString text
    let path ← if path.isAbsolute then pure path else asked (FileAccess.resolve (base.join path))
    let content ← schemaFile path
    return ⟨Listing.jsonSchemaType, ← orFail (Configuration.schemaText content), some path⟩

end SchemaSource

namespace Configuration
open Loading

def document [YamlReader] (path : Path) : Loading m Yaml := do
  if (← asked (status path)) = .absent then throw (.configuration (.notFound path))
  match textOfBytes? (← asked (read path)) with
  | none => throw (.configuration .unreadable)
  | some text =>
    match YamlReader.read text with
    | .ok value => return value
    | .error .malformed => throw (.configuration .unreadable)
    | .error fault => throw (.value fault)

/-- The configuration that a value describes. -/
def ofYaml (path : Path) (value : Yaml) : Loading m Configuration := do
  let root ← orFail (rootOf value)
  let schema ← SchemaSource.ofPlace path.parent (← orFail (schemaPlace root))
  let seed ← orFail (seedOf root)
  let format ← orFail (formatOf root)
  return { path, schema, seed, format }

/-- A configuration, and what happened while its schema was resolved. -/
structure Loaded where
  result : Except ConfigurationFailure Configuration
  events : List Event

/-- The configuration, provided that its schema gives a list. -/
def checked (room : Room) (configuration : Configuration) (entropy : Int) : Loaded :=
  let outcome := configuration.schema.listing room configuration.seed entropy
  match outcome.result with
  | .ok _ => ⟨.ok configuration, outcome.events⟩
  | .error cause => ⟨.error (.ofListing cause), outcome.events⟩

def load [YamlReader] (room : Room) (entropy : Int) (path : Path) : m Loaded := do
  match ← (document path >>= ofYaml path : Loading m Configuration).run with
  | .ok configuration => return configuration.checked room entropy
  | .error failure => return ⟨.error failure, []⟩

end Configuration
end FieldTree
