import FieldTree.Json.Printer
import FieldTree.Listing.Basic
/-! The list of leaves in writing. -/

namespace FieldTree

inductive ListFormat
  | text
  | json
  deriving DecidableEq

namespace ListFormat

def all : List ListFormat := [text, json]

def name : ListFormat → String
  | text => "text"
  | json => "json"

/-- Case matters. -/
def ofName? (name : String) : Option ListFormat := all.find? fun format => format.name = name

end ListFormat

namespace Leaf

/-- A star after the path marks a required leaf. -/
def line (leaf : Leaf) : String := leaf.path ++ (if leaf.required then "*" else "") ++ "\t" ++ leaf.type

def toJson (leaf : Leaf) : Json :=
  .object [("path", .string leaf.path), ("type", .string leaf.type), ("required", .bool leaf.required)]

end Leaf

namespace Listing

def text (leaves : List Leaf) : String := "\n".intercalate (leaves.map Leaf.line)

def json (leaves : List Leaf) : String := (Json.array (leaves.map Leaf.toJson)).print (.indented 2)

def render : ListFormat → List Leaf → String
  | .text, leaves => text leaves
  | .json, leaves => json leaves

end Listing
end FieldTree
