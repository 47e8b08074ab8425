import FieldTree.Json.Basic
import FieldTree.Text.Quoted
/-! Values as shown in messages: texts in quotes, named values with a capital letter. -/

namespace FieldTree.Json

mutual
def display : Json → String
  | .null => "None"
  | .bool value => if value then "True" else "False"
  | .number value => value.text
  | .string value => Text.quoted value
  | .array items => "[" ++ ", ".intercalate (displayItems items) ++ "]"
  | .object members => "\x7b" ++ ", ".intercalate (displayMembers members) ++ "\x7d"

def displayItems : List Json → List String
  | [] => []
  | item :: rest => item.display :: displayItems rest

def displayMembers : Members → List String
  | [] => []
  | (key, value) :: rest => (Text.quoted key ++ ": " ++ value.display) :: displayMembers rest
end

end FieldTree.Json
