import FieldTree.Text.Encoding
import FieldTree.Yaml.Cursor
import FieldTree.Yaml.Value
/-! What may be said about a node or a document: anchors, tags and directives. -/

namespace FieldTree.Yaml

/-- A line between documents that begins with a percent sign. -/
inductive Directive
  | version (major : Int)
  /-- What a handle stands for in tags. -/
  | handle (name base : String)
  | other
  deriving DecidableEq

namespace Property

def isNameChar (c : Char) : Bool := c.isAlphanum || c = '-' || c = '_'

/-- Whether a space, a line end or the end of the text follows. -/
def isSetApart (cursor : Cursor) : Bool := cursor.peek?.all fun c => c = ' ' || isBreak c

def setApart (cursor : Cursor) : Except Fault Cursor :=
  if isSetApart cursor then .ok cursor else .error .malformed

/-- The name of an anchor, after its mark. -/
def anchor (cursor : Cursor) : Except Fault (String × Cursor) := do
  let (name, place) := cursor.run isNameChar
  let ends := place.peek?.all fun c => isGap c || "?:,]\x7d%@\x60".toList.contains c
  if name.isEmpty || !ends then throw .malformed
  return (String.ofList name, place)

/-- One exclamation mark, or a name between two. -/
def handle (cursor : Cursor) : Except Fault (String × Cursor) := do
  if !cursor.isAt '!' then throw .malformed
  let (name, place) := cursor.advance.run isNameChar
  if place.isAt '!' then return ("!" ++ String.ofList name ++ "!", place.advance)
  else if cursor.advance.isAt ' ' then return ("!", cursor.advance)
  else throw .malformed

def isAddressChar (c : Char) : Bool := c.isAlphanum || "-;/?:@&=+$,_.!~*'()[]%".toList.contains c

/-- The bytes of an address. A percent sign and two digits are one of them. -/
def addressBytes? : List Char → Option (List UInt8)
  | [] => some []
  | '%' :: a :: b :: rest => do
    let byte ← Text.hexNumber? [a, b]
    return UInt8.ofNat byte :: (← addressBytes? rest)
  | '%' :: _ => none
  | c :: rest => (addressBytes? rest).map (UInt8.ofNat c.toNat :: ·)

def address (cursor : Cursor) : Except Fault (String × Cursor) := do
  let (chars, place) := cursor.run isAddressChar
  if chars.isEmpty then throw .malformed
  return (← orMalformed ((addressBytes? chars).bind Text.ofUtf8?), place)

/-- A tag as it is written: after a handle, or in full. The mark alone is a tag in full. -/
def tag (cursor : Cursor) : Except Fault ((Option String × String) × Cursor) := do
  let written (handle : Option String) (place : Cursor) : Except Fault ((Option String × String) × Cursor) := do
    let (suffix, place) ← address place
    return ((handle, suffix), place)
  let after := cursor.advance
  let (name, place) ←
    if after.isAt '<' then do
      let (name, place) ← written none after.advance
      if !place.isAt '>' then throw .malformed
      pure (name, place.advance)
    else if after.peek?.all isGap then pure ((none, "!"), after)
    else if (after.rest.takeWhile fun c => c ≠ ' ' && !isBreak c).contains '!' then do
      let (handle, place) ← handle cursor
      written (some handle) place
    else written (some "!") after
  return (name, ← setApart place)

def versionNumber (cursor : Cursor) : Except Fault (Int × Cursor) := do
  let (digits, place) := cursor.run Char.isDigit
  if digits.isEmpty then throw .malformed
  return (← (decimalInteger digits).mapError .scalar, place)

def version (cursor : Cursor) : Except Fault (Directive × Cursor) := do
  let (major, place) ← versionNumber cursor.skipSpaces
  if !place.isAt '.' then throw .malformed
  let (_, place) ← versionNumber place.advance
  return (.version major, ← setApart place)

def tagHandle (cursor : Cursor) : Except Fault (Directive × Cursor) := do
  let (name, place) ← handle cursor.skipSpaces
  if !place.isAt ' ' then throw .malformed
  let (base, place) ← address place.skipSpaces
  return (.handle name base, ← setApart place)

/-- A directive after its mark, up to the end of its line. -/
def directive (cursor : Cursor) : Except Fault (Directive × Cursor) := do
  let (name, place) := cursor.run isNameChar
  if name.isEmpty then throw .malformed
  let place ← setApart place
  let (directive, place) ← match String.ofList name with
    | "YAML" => version place
    | "TAG" => tagHandle place
    | _ => pure (.other, place.skipLine)
  let place := place.skipSpaces
  let place := if place.isAt '#' then place.skipLine else place
  if place.atEnd then return (directive, place)
  return (directive, (← orMalformed place.lineBreak?).2)

end Property
end FieldTree.Yaml
