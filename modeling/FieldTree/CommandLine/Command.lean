import FieldTree.Listing.Format
import FieldTree.Number.Literal
/-! The commands of the program, and what it is told by its arguments. -/

namespace FieldTree.CommandLine

/-- What a program prints, and the code that it ends with. -/
structure Output where
  exit : Nat
  out : String
  err : String
  deriving DecidableEq

/-- A request to list the fields of a schema. -/
structure FieldsRequest where
  config : Option String
  schema : Option String
  seed : Option Int
  format : Option ListFormat
  verbose : Bool
  deriving DecidableEq

namespace FieldsRequest

/-- The options that take a value. -/
def options : List String := ["--config", "--schema", "--seed", "--format"]

/-- What is asked for by the values of the options. A seed has to be an integer, and a format one of those there are. -/
def ofValues? (value? : String → Option String) (verbose : Bool) : Option FieldsRequest := do
  let seed ← (value? "--seed").mapM Literal.int?
  let format ← (value? "--format").mapM ListFormat.ofName?
  return { config := value? "--config", schema := value? "--schema", seed, format, verbose }

end FieldsRequest

inductive Command
  | fields (request : FieldsRequest)
  | generate (output : String)
  deriving DecidableEq

/-- How arguments are read: as a command, or as something that is answered at once, such as misuse. -/
class CommandReader where
  read : List String → Except Output Command

end FieldTree.CommandLine
