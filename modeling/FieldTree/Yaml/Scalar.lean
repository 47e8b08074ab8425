import FieldTree.Text.Encoding
import FieldTree.Text.Hexadecimal
import FieldTree.Yaml.Cursor
import FieldTree.Yaml.Fault
/-! The text of scalars: without quotes, in quotes, and as a block of lines. Each function takes a number of
rounds that is more than there are characters left. -/

namespace FieldTree.Yaml

/-- The text that line breaks stand for between two words: a single one stands for a space. -/
def folded (first : Char) (more : List Char) : List Char :=
  if first ≠ '\n' then first :: more else if more.isEmpty then [' '] else more

/-- The line breaks of blank lines, and the place after them and after the blanks of the next line. Nothing
if the document ends on the way. -/
def blankLines (isBlank : Char → Bool) : Nat → Cursor → Option (List Char) × Cursor
  | 0, cursor => (some [], cursor)
  | rounds + 1, cursor =>
    if cursor.atSeparator then (none, cursor)
    else
      let next := cursor.skipWhile isBlank
      match next.lineBreak? with
      | some (c, after) =>
        let (more, place) := blankLines isBlank rounds after
        (more.map (c :: ·), place)
      | none => (some [], next)

/-! Without quotes -/

def isFlowMark (c : Char) : Bool := c = ',' || c = '[' || c = ']' || c = '{' || c = '}'

/-- How many characters of a word follow. A colon belongs to it unless a gap comes next. -/
def wordLength (inFlow : Bool) : List Char → Nat
  | [] => 0
  | c :: rest =>
    let endsKey := rest.head?.all fun d => isGap d || (inFlow && isFlowMark d)
    if isGap c || (c = ':' && endsKey) || (inFlow && (isFlowMark c || c = '?')) then 0
    else wordLength inFlow rest + 1

structure Plain where
  chars : List Char
  next : Cursor
  /-- Whether a line ended after the last word. -/
  newLine : Bool

/-- Words with what stands between them. In a block they end where the next line is indented less than
`indent`. -/
def plain (inFlow : Bool) (indent : Int) : Nat → Cursor → Bool → Plain
  | 0, cursor, newLine => ⟨[], cursor, newLine⟩
  | rounds + 1, cursor, newLine =>
    let length := wordLength inFlow cursor.rest
    if cursor.isAt '#' || length = 0 then ⟨[], cursor, newLine⟩
    else
      let word := cursor.rest.take length
      let (spaces, place) := (cursor.skip length).run (· = ' ')
      let ends (place : Cursor) : Bool := !inFlow && (place.column : Int) < indent
      let continued (between : List Char) (place : Cursor) (newLine : Bool) : Plain :=
        if ends place then ⟨word, place, newLine⟩
        else
          let more := plain inFlow indent rounds place newLine
          ⟨if more.chars.isEmpty then word else word ++ between ++ more.chars, more.next, more.newLine⟩
      match place.lineBreak? with
      | some (c, after) =>
        match blankLines (· = ' ') rounds after with
        | (none, place) => ⟨word, place, true⟩
        | (some more, place) => continued (folded c more) place true
      | none => if spaces.isEmpty then ⟨word, place, false⟩ else continued spaces place false

/-! In quotes -/

def isQuotedBlank (c : Char) : Bool := c = ' ' || c = '\t'

/-- The codes that follow a backslash with this letter, in digits. -/
def codeLength? : Char → Option Nat
  | 'x' => some 2
  | 'u' => some 4
  | 'U' => some 8
  | _ => none

def escaped? : Char → Option Char
  | '0' => some '\x00'
  | 'a' => some '\x07'
  | 'b' => some '\x08'
  | 't' => some '\t'
  | '\t' => some '\t'
  | 'n' => some '\n'
  | 'v' => some '\x0b'
  | 'f' => some '\x0c'
  | 'r' => some '\r'
  | 'e' => some '\x1b'
  | ' ' => some ' '
  | '"' => some '"'
  | '\\' => some '\\'
  | '/' => some '/'
  | 'N' => some '\x85'
  | '_' => some '\xa0'
  | 'L' => some '\u2028'
  | 'P' => some '\u2029'
  | _ => none

def codes (chars : List Char) : List Nat := chars.map Char.toNat

/-- The code that digits write. It need not be the code of a character: it may be half of a pair. -/
def escapedCode (digits : List Char) : Except Fault Nat := do
  let code ← orMalformed (Text.hexNumber? digits)
  if 0x7fffffff < code then throw .codeTooLarge
  if 0x10ffff < code then throw .noCharacter
  return code

/-- What stands after a backslash: a letter for a character, a code, or the end of a line, which is left out
together with the blanks of the next. -/
def escape (rounds : Nat) (cursor : Cursor) : Except Fault (List Nat × Cursor) := do
  let c ← orMalformed cursor.peek?
  match escaped? c, codeLength? c with
  | some value, _ => return ([value.toNat], cursor.advance)
  | none, some length =>
    let digits := cursor.rest.tail.take length
    if digits.length < length then throw .malformed
    return ([← escapedCode digits], cursor.skip (length + 1))
  | none, none =>
    let (_, after) ← orMalformed cursor.lineBreak?
    let (breaks, place) := blankLines isQuotedBlank rounds after
    return (codes (← orMalformed breaks), place)

/-- The codes of the text up to the closing quote, and the place after it. Between double quotes a backslash
escapes; between single quotes two quotes stand for one. -/
def quoted (quote : Char) : Nat → Cursor → Except Fault (List Nat × Cursor)
  | 0, _ => .error .malformed
  | rounds + 1, cursor => do
    let c ← orMalformed cursor.peek?
    let continued (codes : List Nat) (place : Cursor) : Except Fault (List Nat × Cursor) :=
      (quoted quote rounds place).map fun (more, place) => (codes ++ more, place)
    if c = quote then
      if quote = '\'' && (cursor.rest.drop 1).head? = some quote then continued [quote.toNat] (cursor.skip 2)
      else return ([], cursor.advance)
    else if c = '\\' && quote = '"' then
      let (codes, place) ← escape rounds cursor.advance
      continued codes place
    else if isGap c then
      let (blanks, place) := cursor.run isQuotedBlank
      match place.lineBreak? with
      | some (first, after) =>
        let (more, place) := blankLines isQuotedBlank rounds after
        continued (codes (folded first (← orMalformed more))) place
      | none => continued (codes blanks) place
    else continued [c.toNat] cursor.advance

/-! As a block -/

/-- What becomes of the line breaks at the end of a block. -/
inductive Chomping
  | strip
  | clip
  | keep
  deriving DecidableEq

structure BlockHeader where
  chomping : Chomping
  increment : Option Nat

def chomping? : Char → Option Chomping
  | '-' => some .strip
  | '+' => some .keep
  | _ => none

def increment? (c : Char) : Option Nat := if '1' ≤ c && c ≤ '9' then some (c.toNat - '0'.toNat) else none

/-- At most one sign and one digit, in either order. -/
def blockHeader : List Char → Option BlockHeader
  | [] => some ⟨.clip, none⟩
  | [c] =>
    match chomping? c, increment? c with
    | some chomping, _ => some ⟨chomping, none⟩
    | none, some increment => some ⟨.clip, some increment⟩
    | none, none => none
  | [c, d] =>
    match chomping? c, increment? d, increment? c, chomping? d with
    | some chomping, some increment, _, _ => some ⟨chomping, some increment⟩
    | _, _, some increment, some chomping => some ⟨chomping, some increment⟩
    | _, _, _, _ => none
  | _ => none

/-- The breaks of the blank lines before a block, its greatest column, and the place after them. -/
def leadingLines : Nat → Cursor → List Char × Nat × Cursor
  | 0, cursor => ([], 0, cursor)
  | rounds + 1, cursor =>
    let next := cursor.skipSpaces
    match next.lineBreak? with
    | some (c, after) =>
      let (breaks, column, place) := leadingLines rounds after
      (c :: breaks, max next.column column, place)
    | none => ([], next.column, next)

def skipIndent (indent : Nat) (cursor : Cursor) : Cursor :=
  cursor.skip (min (indent - cursor.column) (cursor.rest.takeWhile (· = ' ')).length)

/-- The breaks of the lines without text at this indentation, and the place after them. -/
def emptyLines (indent : Nat) : Nat → Cursor → List Char × Cursor
  | 0, cursor => ([], cursor)
  | rounds + 1, cursor =>
    let next := skipIndent indent cursor
    match next.lineBreak? with
    | some (c, after) =>
      let (breaks, place) := emptyLines indent rounds after
      (c :: breaks, place)
    | none => ([], next)

/-- The lines of a block from its first, which is not empty. A line that starts with a blank is not folded,
nor is the break before it. -/
def blockLines (isFolded : Bool) (chomping : Chomping) (indent : Nat) : Nat → Cursor → List Char × Cursor
  | 0, cursor => ([], cursor)
  | rounds + 1, cursor =>
    let isBlank (cursor : Cursor) : Bool := cursor.isAt ' ' || cursor.isAt '\t'
    let (line, place) := cursor.run (!isBreak ·)
    let ended := place.lineBreak?
    let lineBreak := (ended.map Prod.fst).toList
    let (breaks, next) := emptyLines indent rounds ((ended.map Prod.snd).getD place)
    if next.column = indent && !next.atEnd then
      let joint :=
        if isFolded && lineBreak = ['\n'] && !isBlank cursor && !isBlank next then
          if breaks.isEmpty then [' '] else []
        else lineBreak
      let (more, place) := blockLines isFolded chomping indent rounds next
      (line ++ joint ++ breaks ++ more, place)
    else
      let kept := match chomping with
        | .strip => []
        | .clip => lineBreak
        | .keep => lineBreak ++ breaks
      (line ++ kept, next)

/-- A block after its mark. The text is indented more than `indent`, as much as the header says or as its
first line is. -/
def block (isFolded : Bool) (indent : Int) (rounds : Nat) (cursor : Cursor) :
    Except Fault (List Char × Cursor) := do
  let (header, place) := cursor.run fun c => c ≠ ' ' && !isBreak c
  let header ← orMalformed (blockHeader header)
  let place := place.skipSpaces
  let place := if place.isAt '#' then place.skipLine else place
  let place ← if place.atEnd then pure place else orMalformed (place.lineBreak?.map Prod.snd)
  let least := (max (indent + 1) 1).toNat
  let (breaks, indent, place) := match header.increment with
    | some increment =>
      let indent := least + increment - 1
      let (breaks, place) := emptyLines indent rounds place
      (breaks, indent, place)
    | none =>
      let (breaks, column, place) := leadingLines rounds place
      (breaks, max least column, place)
  if place.column = indent && !place.atEnd then
    let (chars, place) := blockLines isFolded header.chomping indent rounds place
    return (breaks ++ chars, place)
  else return (if header.chomping = .keep then breaks else [], place)

end FieldTree.Yaml
