import FieldTree.Json.Basic
import FieldTree.Number.Literal
import FieldTree.Text.Encoding
import FieldTree.Text.Hexadecimal
/-! The tokens of JSON text: brackets, separators, texts and words. -/

namespace FieldTree.Json

inductive Token
  | openArray
  | closeArray
  | openObject
  | closeObject
  | comma
  | colon
  | text (value : String)
  /-- A number or a named value. -/
  | atom (value : Json)

namespace Token

def isSpace (c : Char) : Bool := c = ' ' || c = '\t' || c = '\n' || c = '\r'

def mark? : Char → Option Token
  | '[' => some .openArray
  | ']' => some .closeArray
  | '{' => some .openObject
  | '}' => some .closeObject
  | ',' => some .comma
  | ':' => some .colon
  | _ => none

/-- A run of the digits `0` to `9` that is not empty. -/
def digits? (chars : List Char) : Option (List Nat) :=
  if chars.isEmpty || !chars.all Char.isDigit then none else some (chars.map fun c => c.toNat - '0'.toNat)

def fraction? : Option (List Char) → Option (List Nat)
  | none => some []
  | some chars => digits? chars

def exponent? : Option (List Char) → Option Int
  | none => some 0
  | some chars => do
    let (negative, rest) := Literal.splitSign chars
    return Literal.signed negative (Literal.value (← digits? rest))

/-- A number. Without a fraction and without an exponent it is an integer; its first digit is zero only
when it is the only one. -/
def number? (chars : List Char) : Option Number := do
  let negative := chars.head? == some '-'
  let unsigned := if negative then chars.tail else chars
  let (mantissa, power) := Literal.splitAtFirst (fun c => c = 'e' || c = 'E') unsigned
  let (before, after) := Literal.splitAtFirst (· = '.') mantissa
  let whole ← digits? before
  if whole.head? == some 0 && 1 < whole.length then none
  match after, power with
  | none, none =>
    if Literal.maxDigits < whole.length then none
    return .int (Literal.signed negative (Literal.value whole))
  | _, _ =>
    let fraction ← fraction? after
    let exponent ← exponent? power
    return .float (Double.ofDecimal negative (Literal.value (whole ++ fraction)) (exponent - fraction.length))

def word? (chars : List Char) : Option Json :=
  match String.ofList chars with
  | "null" => some .null
  | "true" => some (.bool true)
  | "false" => some (.bool false)
  | "NaN" => some (.number (.float .nan))
  | "Infinity" => some (.number (.float (.infinite false)))
  | "-Infinity" => some (.number (.float (.infinite true)))
  | _ => (number? chars).map .number

def escaped? : Char → Option Nat
  | '"' => some 0x22
  | '\\' => some 0x5c
  | '/' => some 0x2f
  | 'b' => some 0x8
  | 'f' => some 0xc
  | 'n' => some 0xa
  | 'r' => some 0xd
  | 't' => some 0x9
  | _ => none

/-- Where in the text the scan stands. Words and the codes of a text are held in reverse. -/
inductive Place
  | between
  | word (chars : List Char)
  | inText (codes : List Nat)
  | afterBackslash (codes : List Nat)
  | inCode (codes : List Nat) (digits : List Nat)

/-- The tokens so far, in reverse, and the place. -/
structure Scan where
  tokens : List Token
  place : Place

namespace Scan

def start : Scan := ⟨[], .between⟩

def between (tokens : List Token) (c : Char) : Scan :=
  if isSpace c then ⟨tokens, .between⟩
  else if c = '"' then ⟨tokens, .inText []⟩
  else match mark? c with
    | some token => ⟨token :: tokens, .between⟩
    | none => ⟨tokens, .word [c]⟩

def endsWord (c : Char) : Bool := isSpace c || c = '"' || (mark? c).isSome

/-- Controls inside a text have to be escaped. -/
def step (scan : Scan) (c : Char) : Option Scan :=
  match scan.place with
  | .between => some (between scan.tokens c)
  | .word chars =>
    if endsWord c then (word? chars.reverse).map fun value => between (.atom value :: scan.tokens) c
    else some ⟨scan.tokens, .word (c :: chars)⟩
  | .inText codes =>
    if c = '"' then some ⟨.text (Text.ofUnits codes.reverse) :: scan.tokens, .between⟩
    else if c = '\\' then some ⟨scan.tokens, .afterBackslash codes⟩
    else if c.toNat < 0x20 then none
    else some ⟨scan.tokens, .inText (c.toNat :: codes)⟩
  | .afterBackslash codes =>
    if c = 'u' then some ⟨scan.tokens, .inCode codes []⟩
    else (escaped? c).map fun code => ⟨scan.tokens, .inText (code :: codes)⟩
  | .inCode codes digits =>
    (Text.hexValue? c).map fun digit =>
      if digits.length = 3 then
        ⟨scan.tokens, .inText ((digits ++ [digit]).foldl (16 * · + ·) 0 :: codes)⟩
      else ⟨scan.tokens, .inCode codes (digits ++ [digit])⟩

def finish (scan : Scan) : Option (List Token) :=
  match scan.place with
  | .between => some scan.tokens.reverse
  | .word chars => (word? chars.reverse).map fun value => (.atom value :: scan.tokens).reverse
  | _ => none

end Scan

def ofChars? (chars : List Char) : Option (List Token) := (chars.foldlM Scan.step Scan.start).bind Scan.finish

end Token
end FieldTree.Json
