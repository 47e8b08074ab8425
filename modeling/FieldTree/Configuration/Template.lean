import FieldTree.Files.Access
/-! A configuration to be filled in. -/

namespace FieldTree.Template

def defaultFileName : String := "config.yaml"

def lines : List String := [
  "# Configuration template for schema-field-resolver.",
  "# Replace every <REQUIRED> placeholder before running fields.",
  "# Replace <OPTIONAL> placeholders only when your setup needs them.",
  "",
  "schema:",
  "  json_schema:",
  "    # Provide either inline JSON schema text or a JSON schema path.",
  "    # Relative paths are resolved against this file's directory.",
  "    inline: \"<REQUIRED>\"",
  "    # path: \"<OPTIONAL>\"",
  "",
  "resolution:",
  "  # Integer seed for reproducible anyOf/oneOf branch selection.",
  "  # Leave unset to pick branches at random on every run.",
  "  # seed: 42",
  "",
  "output:",
  "  # Flattened field list format: text or json.",
  "  format: \"text\""]

def text : String := String.join (lines.map (· ++ "\n"))

inductive WriteError
  | exists (path : Path)
  | file (error : FileError)

def WriteError.message : WriteError → String
  | .exists path => "Configuration file already exists: " ++ path.text
  | .file error => error.message

variable {m : Type → Type} [Monad m] [FileAccess m]
open FileAccess

/-- Writes the template to a file that is not there yet, and tells where that is. -/
def write (path : Path) : m (Except WriteError Path) := do
  match ← resolve path, ← status path with
  | .error error, _ => return .error (.file error)
  | _, .error error => return .error (.file error)
  | .ok place, .ok .absent =>
    return (← FileAccess.write path (Text.toUtf8 text)).mapError .file |>.map fun () => place
  | .ok place, _ => return .error (.exists place)

end FieldTree.Template
