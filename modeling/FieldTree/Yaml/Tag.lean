import FieldTree.Number.Literal
import FieldTree.Text.Hexadecimal
import FieldTree.Text.Split
import FieldTree.Yaml.Timestamp
/-! Tags say what kind of value a node stands for. A scalar without quotes has its tag from its looks. -/

namespace FieldTree.Yaml

inductive Tag
  | null
  | bool
  | int
  | float
  | binary
  | timestamp
  | str
  | seq
  | map
  | set
  | omap
  | pairs
  /-- The key whose value is merged into the mapping around it. -/
  | merge
  /-- The key of a default value. -/
  | value
  | unknown (name : String)
  deriving DecidableEq

namespace Tag

/-- Where the names of the common tags begin. -/
def commonPrefix : String := "tag:yaml.org,2002:"

def common : List (String × Tag) :=
  [("null", .null), ("bool", .bool), ("int", .int), ("float", .float), ("binary", .binary),
    ("timestamp", .timestamp), ("str", .str), ("seq", .seq), ("map", .map), ("set", .set), ("omap", .omap),
    ("pairs", .pairs), ("merge", .merge), ("value", .value)]

def ofName (name : String) : Tag :=
  match common.find? fun (short, _) => commonPrefix ++ short = name with
  | some (_, tag) => tag
  | none => .unknown name

def isCollection : Tag → Bool
  | .seq => true
  | .map => true
  | .set => true
  | .omap => true
  | .pairs => true
  | _ => false

/-! The looks of words -/

def isDigitOr (c d : Char) : Bool := d.isDigit || d = c

def isDigitIn (base : Nat) (c : Char) : Bool := (Text.hexValue? c).any (· < base)

/-- A part of a number in base sixty after the first. -/
def isSixtieth : List Char → Bool
  | [d] => d.isDigit
  | [c, d] => '0' ≤ c && c ≤ '5' && d.isDigit
  | _ => false

def isNatWord : List Char → Bool
  | ['0'] => true
  | '0' :: 'b' :: digits => !digits.isEmpty && digits.all fun d => isDigitIn 2 d || d = '_'
  | '0' :: 'x' :: digits => !digits.isEmpty && digits.all fun d => isDigitIn 16 d || d = '_'
  | '0' :: digits => digits.all fun d => isDigitIn 8 d || d = '_'
  | first :: rest =>
    first.isDigit &&
      match Text.splitOn ':' (first :: rest) with
      | digits :: sixtieths => digits.all (isDigitOr '_') && sixtieths.all isSixtieth
      | [] => false
  | [] => false

/-- An integer: binary, octal after a zero, hexadecimal, decimal, or in base sixty. -/
def isIntWord (chars : List Char) : Bool := isNatWord (Literal.splitSign chars).2

def startsWithDigit (chars : List Char) : Bool := chars.head?.any Char.isDigit

/-- The exponent of a decimal number always has a sign. -/
def isExponent : List Char → Bool
  | sign :: digits => (sign = '+' || sign = '-') && !digits.isEmpty && digits.all Char.isDigit
  | [] => false

/-- A number with a point. There may be no digits before it, or no digits after it. -/
def isPointedWord (chars : List Char) : Bool :=
  let (mantissa, power) := Literal.splitAtFirst (fun c => c = 'e' || c = 'E') chars
  let (before, after) := Literal.splitAtFirst (· = '.') mantissa
  match after, Text.splitOn ':' before with
  | some fraction, whole :: sixtieths =>
    fraction.all (isDigitOr '_') && power.all isExponent &&
      if before.isEmpty then startsWithDigit fraction
      else
        startsWithDigit whole && whole.all (isDigitOr '_') && sixtieths.all isSixtieth &&
          (sixtieths.isEmpty || power.isNone)
  | _, _ => false

def isInfinityWord (chars : List Char) : Bool := [".inf", ".Inf", ".INF"].contains (String.ofList chars)

def isNanWord (chars : List Char) : Bool := [".nan", ".NaN", ".NAN"].contains (String.ofList chars)

/-- A sign comes neither before a point nor before what is no number. -/
def isFloatWord (chars : List Char) : Bool :=
  let unsigned := (Literal.splitSign chars).2
  isInfinityWord unsigned || isNanWord chars ||
    (isPointedWord unsigned && (unsigned.length = chars.length || unsigned.head? ≠ some '.'))

def boolWords : List String := ["yes", "no", "true", "false", "on", "off"]

/-- In small letters, with a capital, or in capitals. -/
def isBoolWord (word : String) : Bool :=
  boolWords.any fun small => word = small || word = small.capitalize || word = small.toUpper

def isNullWord (word : String) : Bool := ["", "~", "null", "Null", "NULL"].contains word

/-- A date alone has two digits for the month and two for the day. -/
def isTimestampWord (chars : List Char) : Bool :=
  match Timestamp.ofChars? chars with
  | some stamp => stamp.time.isSome || chars.length = 10
  | none => false

/-- The tag that a scalar without quotes has from its looks. -/
def ofWord (chars : List Char) : Tag :=
  let word := String.ofList chars
  if isBoolWord word then .bool
  else if isFloatWord chars then .float
  else if isIntWord chars then .int
  else if word = "<<" then .merge
  else if isNullWord word then .null
  else if isTimestampWord chars then .timestamp
  else if word = "=" then .value
  else .str

end Tag
end FieldTree.Yaml
