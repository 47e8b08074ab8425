import FieldTree.Configuration.Error
import FieldTree.Text.Blank
import FieldTree.Yaml.Basic
/-! Configurations: which schema is resolved, how branches are chosen, and how the list is written. The
sections are read from a value; where a section says nothing its defaults hold. -/

namespace FieldTree

/-- A schema in text, and the file that it was read from. -/
structure SchemaSource where
  type : String
  text : String
  path : Option Path

structure Configuration where
  path : Path
  schema : SchemaSource
  seed : Option Int
  format : ListFormat

/-- Where a configuration says that the schema is. -/
inductive SchemaPlace
  | inline (text : String)
  | file (path : String)
  deriving DecidableEq

namespace Configuration

/-- The entries of the root of a configuration. An empty document has none. -/
def rootOf : Yaml → Except ConfigurationError (List (Yaml × Yaml))
  | .null => .ok []
  | .mapping entries => .ok entries
  | _ => .error .rootNotMapping

def sectionOf (name : String) : Option Yaml → Except ConfigurationError (List (Yaml × Yaml))
  | some (.mapping entries) => .ok entries
  | _ => .error (.missingSection name)

/-- A section that need not be there, or may be null. -/
def optionalSection (name : String) : Option Yaml → Except ConfigurationError (Option (List (Yaml × Yaml)))
  | none => .ok none
  | some .null => .ok none
  | some value => (sectionOf name (some value)).map some

def isGiven (value : Option Yaml) : Bool := value.any Yaml.isTruthy

/-- Types of schemas that are known but not read. -/
def unsupportedTypes : List String := ["avsc", "protobuf"]

/-- A schema is told by its text or by its path, not by both. -/
def placeOfParts (inline path : Option Yaml) : Except ConfigurationError SchemaPlace :=
  if isGiven inline && isGiven path then .error .inlineAndPath
  else if isGiven inline then
    match inline with
    | some (.string text) => .ok (.inline text)
    | _ => .error .inlineNotText
  else if isGiven path then
    match path with
    | some (.string text) => .ok (.file text)
    | _ => .error .pathNotText
  else .error .noInlineOrPath

def placeOfDefinition : Option Yaml → Except ConfigurationError SchemaPlace
  | some (.string text) => .ok (.inline text)
  | definition => do
    let entries ← sectionOf "schema definition" definition
    placeOfParts (Yaml.get? entries "inline") (Yaml.get? entries "path")

def schemaPlace (root : List (Yaml × Yaml)) : Except ConfigurationError SchemaPlace := do
  let entries ← sectionOf "schema" (Yaml.get? root "schema")
  match unsupportedTypes.find? fun name => isGiven (Yaml.get? entries name) with
  | some name => .error (.unsupportedType name)
  | none =>
    let definition := Yaml.get? entries Listing.jsonSchemaType
    if isGiven definition then placeOfDefinition definition else .error .noSchema

def seedOf (root : List (Yaml × Yaml)) : Except ConfigurationError (Option Int) := do
  match ← optionalSection "resolution" (Yaml.get? root "resolution") with
  | none => return none
  | some entries =>
    match Yaml.get? entries "seed" with
    | none => return none
    | some .null => return none
    | some (.number (.int seed)) => return some seed
    | some _ => .error .seedNotInteger

/-- A format may be written with blanks around it and in any case. -/
def formatOfText (text : String) : Except ConfigurationError ListFormat :=
  let name := Text.strip text
  if name = "" then .error .formatEmpty
  else
    match ListFormat.ofName? (Text.lower name) with
    | some format => .ok format
    | none => .error .unknownFormat

def formatOf (root : List (Yaml × Yaml)) : Except ConfigurationError ListFormat := do
  match ← optionalSection "output" (Yaml.get? root "output") with
  | none => return .text
  | some entries =>
    match Yaml.get? entries "format" with
    | none => return .text
    | some (.string text) => formatOfText text
    | some _ => .error .formatNotText

/-- The text of a schema, if there is anything in it. -/
def schemaText (text : String) : Except ConfigurationError String :=
  if Text.strip text = "" then .error .blankSchema else .ok text

end Configuration

namespace SchemaSource

/-- The leaves of a schema, with branches chosen at random from a seed; without one, from the seed given by
the surroundings. -/
def listing (schema : SchemaSource) (room : Room) (seed : Option Int) (entropy : Int) : ListingOutcome Twister :=
  Listing.ofText room Selector.random (Twister.ofSeed (seed.getD entropy)) schema.type schema.text

end SchemaSource
end FieldTree
