import FieldTree.Yaml.Basic
import FieldTree.Yaml.Tag
/-! The values of scalars. A tag may be written out, so that any text may come under any tag. -/

namespace FieldTree.Yaml

def withoutUnderscores (chars : List Char) : List Char := chars.filter (· ≠ '_')

/-- Digits in a base up to sixteen. There has to be one. -/
def digitsIn (base : Nat) (chars : List Char) : Except ScalarFault Nat :=
  if !chars.isEmpty && chars.all (Tag.isDigitIn base) then
    .ok (chars.foldl (fun value c => base * value + (Text.hexValue? c).getD 0) 0)
  else .error (.noInteger base (String.ofList chars))

/-- A decimal integer. Only these are limited in length. -/
def decimalInteger (chars : List Char) : Except ScalarFault Int :=
  match Literal.int? (String.ofList chars) with
  | some value => .ok value
  | none =>
    if chars.all Char.isDigit && Literal.maxDigits < chars.length then .error (.integerTooLong chars.length)
    else .error (.noInteger 10 (String.ofList chars))

/-- A number in base sixty, each part in decimal. -/
def sexagesimal (parts : List (List Char)) : Except ScalarFault Int :=
  parts.foldlM (fun value part => return 60 * value + (← decimalInteger part)) 0

def unsignedValue : List Char → Except ScalarFault Int
  | [] => .error .noDigits
  | '0' :: 'b' :: digits => (digitsIn 2 digits).map Int.ofNat
  | '0' :: 'x' :: digits => (digitsIn 16 digits).map Int.ofNat
  | '0' :: digits => (digitsIn 8 ('0' :: digits)).map Int.ofNat
  | chars => sexagesimal (Text.splitOn ':' chars)

def intValue (chars : List Char) : Except ScalarFault Int := do
  let (negative, unsigned) := Literal.splitSign (withoutUnderscores chars)
  let size ← unsignedValue unsigned
  return if negative then -size else size

/-- A decimal number, or one in base sixty whose last part may have a fraction. -/
def unsignedFloat (negative : Bool) (chars : List Char) : Except ScalarFault Double :=
  let fault : ScalarFault := .noNumber (String.ofList chars)
  let read (chars : List Char) : Except ScalarFault Double :=
    match Literal.floatOfChars? (if negative then '-' :: chars else chars) with
    | some value => .ok value
    | none => .error fault
  match (Text.splitOn ':' chars).reverse with
  | last :: first :: rest => do
    let (seconds, fraction) := Literal.splitAtFirst (· = '.') last
    let whole ← sexagesimal (seconds :: first :: rest).reverse
    read ((toString whole).toList ++ '.' :: fraction.getD [])
  | _ => read chars

def floatValue (chars : List Char) : Except ScalarFault Double :=
  let (negative, unsigned) := Literal.splitSign ((withoutUnderscores chars).map Char.toLower)
  match String.ofList unsigned with
  | "" => .error .noDigits
  | ".inf" => .ok (.infinite negative)
  | ".nan" => .ok .nan
  | _ => unsignedFloat negative unsigned

def boolValue (text : String) : Except ScalarFault Bool :=
  let word := Text.lower text
  if ["yes", "true", "on"].contains word then .ok true
  else if ["no", "false", "off"].contains word then .ok false
  else .error (.noBool text)

def timestampValue (text : String) : Except ScalarFault String :=
  match Timestamp.ofChars? text.toList with
  | some stamp => stamp.check.map fun () => text
  | none => .error (.noTimestamp text)

/-! Binary data in base sixty-four -/

/-- How far the data has been read: the place in a group of four, the bytes so far, the padding since the last
character that counts, and whether padding has ended the data. -/
structure BinaryScan where
  place : Nat := 0
  size : Nat := 0
  padding : Nat := 0
  hasEnded : Bool := false

/-- Characters that belong neither to the data nor to the padding do not count. -/
def BinaryScan.step (scan : BinaryScan) (c : Char) : BinaryScan :=
  if scan.hasEnded then scan
  else if c = '=' then
    if scan.place < 2 then scan
    else { scan with padding := scan.padding + 1, hasEnded := 4 ≤ scan.place + scan.padding + 1 }
  else if c.isAlphanum || c = '+' || c = '/' then
    { place := (scan.place + 1) % 4, size := if scan.place = 0 then scan.size else scan.size + 1 }
  else scan

/-- The number of bytes, if the last group is complete. -/
def binarySize? (chars : List Char) : Option Nat :=
  let scan := chars.foldl BinaryScan.step {}
  if chars.all (·.toNat < 0x80) && (scan.hasEnded || scan.place = 0) then some scan.size else none

/-- The value of a scalar under a tag. Under the tag of a collection it has none, nor under a tag that means
something only on a key, nor under one that is not known. -/
def Tag.scalarValue (tag : Tag) (text : String) : Except Fault Yaml :=
  match tag with
  | .null => .ok .null
  | .bool => ((boolValue text).map Yaml.bool).mapError .scalar
  | .int => ((intValue text.toList).map fun value => Yaml.number (.int value)).mapError .scalar
  | .float => ((floatValue text.toList).map fun value => Yaml.number (.float value)).mapError .scalar
  | .timestamp => ((timestampValue text).map Yaml.timestamp).mapError .scalar
  | .binary =>
    match binarySize? text.toList with
    | some size => .ok (.binary size)
    | none => .error .malformed
  | .str => .ok (.string text)
  | _ => .error .malformed

end FieldTree.Yaml
