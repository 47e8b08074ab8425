import FieldTree.Json.Basic
import FieldTree.Text.Quoted
/-! JSON text of values, in characters from the space to the tilde: on one line, or one item a line. -/

namespace FieldTree.Json

def escapedUnit (unit : Nat) : String := "\\u" ++ Text.hexCode 4 unit

def escapedChar (c : Char) : String :=
  match c with
  | '"' => "\\\""
  | '\\' => "\\\\"
  | '\n' => "\\n"
  | '\r' => "\\r"
  | '\t' => "\\t"
  | '\x08' => "\\b"
  | '\x0c' => "\\f"
  | c =>
    let code := c.toNat
    if 0x20 ≤ code && code ≤ 0x7e then c.toString
    else if code < 0x10000 then escapedUnit code
    else
      let above := code - 0x10000
      escapedUnit (0xd800 + above / 0x400) ++ escapedUnit (0xdc00 + above % 0x400)

def escapedText (text : String) : String :=
  "\"" ++ String.join (text.toList.map escapedChar) ++ "\""

def numberText : Number → String
  | .float .nan => "NaN"
  | .float (.infinite negative) => if negative then "-Infinity" else "Infinity"
  | value => value.text

/-- How the parts of an array or object are set: what stands before each part, what after the last, and
how the parts inside them are set. -/
structure Layout where
  indent : Option Nat
  depth : Nat

namespace Layout

def oneLine : Layout := ⟨none, 0⟩

def indented (width : Nat) : Layout := ⟨some width, 0⟩

def lineBreak (layout : Layout) : String :=
  match layout.indent with
  | none => ""
  | some width => String.ofList ('\n' :: List.replicate (width * layout.depth) ' ')

def deeper (layout : Layout) : Layout := { layout with depth := layout.depth + 1 }

/-- The parts between brackets. Nothing is broken when there are none. -/
def bracket (layout : Layout) (opening closing : String) (parts : List String) : String :=
  if parts.isEmpty then opening ++ closing
  else
    let separator := if layout.indent.isSome then "," else ", "
    opening ++ layout.deeper.lineBreak ++ (separator ++ layout.deeper.lineBreak).intercalate parts ++
      layout.lineBreak ++ closing

end Layout

mutual
def print (layout : Layout) : Json → String
  | .null => "null"
  | .bool value => if value then "true" else "false"
  | .number value => numberText value
  | .string value => escapedText value
  | .array items => layout.bracket "[" "]" (printItems layout.deeper items)
  | .object members => layout.bracket "\x7b" "\x7d" (printMembers layout.deeper members)

def printItems (layout : Layout) : List Json → List String
  | [] => []
  | item :: rest => item.print layout :: printItems layout rest

def printMembers (layout : Layout) : Members → List String
  | [] => []
  | (key, value) :: rest => (escapedText key ++ ": " ++ value.print layout) :: printMembers layout rest
end

end FieldTree.Json
