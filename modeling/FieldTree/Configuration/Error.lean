import FieldTree.Files.Path
import FieldTree.Listing.Format
import FieldTree.Yaml.Fault
/-! What can be wrong with a configuration. -/

namespace FieldTree

inductive ConfigurationError
  | notFound (path : Path)
  | unreadable
  | rootNotMapping
  | missingSection (name : String)
  | unsupportedType (name : String)
  | noSchema
  | inlineAndPath
  | inlineNotText
  | pathNotText
  | noInlineOrPath
  | schemaNotFound (path : Path)
  | schemaNotText (path : Path)
  | blankSchema
  | seedNotInteger
  | formatNotText
  | formatEmpty
  | unknownFormat
  | listing (cause : ListingError)

def ConfigurationError.message : ConfigurationError → String
  | .notFound path => "Configuration file not found: " ++ path.text
  | .unreadable => "Failed to parse configuration file: <decode error>"
  | .rootNotMapping => "Configuration root must be a mapping."
  | .missingSection name => "Configuration section '" ++ name ++ "' is required."
  | .unsupportedType name =>
    "Schema type '" ++ name ++ "' is not supported; use " ++ Listing.jsonSchemaType ++ "."
  | .noSchema => "A " ++ Listing.jsonSchemaType ++ " schema definition must be provided."
  | .inlineAndPath => "Schema definition must not set both inline and path."
  | .inlineNotText => "Schema inline value must be a string."
  | .pathNotText => "Schema path must be a string."
  | .noInlineOrPath => "Schema definition requires either inline or path."
  | .schemaNotFound path => "Schema file not found: " ++ path.text
  | .schemaNotText path => "Schema file is not valid UTF-8: " ++ path.text
  | .blankSchema => "Schema text cannot be empty."
  | .seedNotInteger => "resolution.seed must be an integer."
  | .formatNotText => "output.format must be a string."
  | .formatEmpty => "output.format must not be empty."
  | .unknownFormat =>
    "output.format must be one of: " ++ ", ".intercalate (ListFormat.all.map ListFormat.name) ++ "."
  | .listing cause => cause.message

/-- Why there is no configuration: it is wrong, a file cannot be used, a word in it looks like a value and
is none, or a resolution failed for a reason that is not in the schema, or for want of room. -/
inductive ConfigurationFailure
  | configuration (error : ConfigurationError)
  | file (error : FileError)
  | value (fault : Yaml.Fault)
  | choice (error : ChoiceError)
  | field (error : FieldError)
  | noRoom

def ConfigurationFailure.message? : ConfigurationFailure → Option String
  | .configuration error => some error.message
  | .file error => some error.message
  | .value fault => some fault.message
  | .choice error => error.message?
  | .field error => some error.message
  | .noRoom => some noRoomMessage

/-- A schema that gives no list makes a wrong configuration. -/
def ConfigurationFailure.ofListing : ListingFailure → ConfigurationFailure
  | .listing cause => .configuration (.listing cause)
  | .choice error => .choice error
  | .field error => .field error
  | .noRoom => .noRoom

end FieldTree
