import FieldTree.Text.Blank
import FieldTree.Text.DecimalDigit
import FieldTree.Number.Basic
/-! Numbers written as text: decimal digits of any script, an optional sign, and single underscores
between digits. -/

namespace FieldTree.Literal
open Text

/-- The longest integer that is read from text, in digits. -/
def maxDigits : Nat := 4300

/-- The digits of a run that is not empty. An underscore has a digit on either side. -/
def run? : List Char → Option (List Nat)
  | [] => none
  | c :: '_' :: rest => do
    let value ← digitValue? c
    return value :: (← run? rest)
  | [c] => (digitValue? c).map ([·])
  | c :: rest => do
    let value ← digitValue? c
    return value :: (← run? rest)

def value (digits : List Nat) : Nat := digits.foldl (10 * · + ·) 0

/-- Whether there is a minus sign, and what follows the sign. -/
def splitSign : List Char → Bool × List Char
  | '-' :: rest => (true, rest)
  | '+' :: rest => (false, rest)
  | chars => (false, chars)

def signed (negative : Bool) (size : Nat) : Int := if negative then -size else size

def intOfChars? (chars : List Char) : Option Int := do
  let (negative, rest) := splitSign chars
  let digits ← run? rest
  if maxDigits < digits.length then none
  return signed negative (value digits)

/-- An integer, with blanks around it other than information separators. -/
def int? (text : String) : Option Int := intOfChars? (trimBy (fun c => isBlank c && !isSeparator c) text.toList)

/-- What stands before the first character of a kind, and what after it. -/
def splitAtFirst (p : Char → Bool) (chars : List Char) : List Char × Option (List Char) :=
  match chars.span (!p ·) with
  | (before, _ :: after) => (before, some after)
  | (before, []) => (before, none)

def optionalRun? (chars : List Char) : Option (List Nat) :=
  if chars.isEmpty then some [] else run? chars

def exponent? : Option (List Char) → Option Int
  | none => some 0
  | some chars => do
    let (negative, rest) := splitSign chars
    return signed negative (value (← run? rest))

/-- A decimal number: digits with or without a point among or beside them, and an optional power of ten. -/
def decimalOfChars? (chars : List Char) : Option Double := do
  let (negative, rest) := splitSign chars
  let (mantissa, power) := splitAtFirst (fun c => c = 'e' || c = 'E') rest
  let (before, after) := splitAtFirst (· = '.') mantissa
  let whole ← optionalRun? before
  let fraction ← optionalRun? (after.getD [])
  if whole.isEmpty && fraction.isEmpty then none
  return Double.ofDecimal negative (value (whole ++ fraction)) ((← exponent? power) - fraction.length)

/-- A decimal number, or the name of what is no finite number, in any case. -/
def floatOfChars? (chars : List Char) : Option Double :=
  let (negative, rest) := splitSign chars
  match String.ofList (rest.map Char.toLower) with
  | "inf" => some (.infinite negative)
  | "infinity" => some (.infinite negative)
  | "nan" => some .nan
  | _ => decimalOfChars? chars

/-- A number, with blanks around it. It is an integer unless there is a point in it. -/
def number? (text : String) : Option Number :=
  let chars := trim text.toList
  if chars.contains '.' then (decimalOfChars? chars).map .float else (intOfChars? chars).map .int

end FieldTree.Literal
