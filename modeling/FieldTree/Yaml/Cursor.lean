/-! A place in a text, with its line and column. -/

namespace FieldTree.Yaml

def isBreak (c : Char) : Bool := c = '\n' || c = '\r' || c = '\x85' || c = '\u2028' || c = '\u2029'

/-- Characters that set words apart. -/
def isGap (c : Char) : Bool := c = ' ' || c = '\t' || isBreak c

structure Cursor where
  rest : List Char
  index : Nat
  line : Nat
  column : Nat

namespace Cursor

def start (chars : List Char) : Cursor := ⟨chars, 0, 0, 0⟩

def peek? (cursor : Cursor) : Option Char := cursor.rest.head?

def isAt (cursor : Cursor) (c : Char) : Bool := cursor.peek? == some c

def atEnd (cursor : Cursor) : Bool := cursor.rest.isEmpty

/-- Whether a gap, or the end, comes after the next `count` characters. -/
def gapAfter (cursor : Cursor) (count : Nat) : Bool := (cursor.rest.drop count).head?.all isGap

/-- The place after the next character. A byte order mark takes no column. -/
def advance (cursor : Cursor) : Cursor :=
  match cursor.rest with
  | [] => cursor
  | c :: rest =>
    if isBreak c && !(c = '\r' && rest.head? = some '\n') then ⟨rest, cursor.index + 1, cursor.line + 1, 0⟩
    else if c = '\ufeff' then ⟨rest, cursor.index + 1, cursor.line, cursor.column⟩
    else ⟨rest, cursor.index + 1, cursor.line, cursor.column + 1⟩

def skip (cursor : Cursor) : Nat → Cursor
  | 0 => cursor
  | count + 1 => cursor.advance.skip count

/-- The characters from here on that are of a kind, and the place after them. -/
def run (cursor : Cursor) (p : Char → Bool) : List Char × Cursor :=
  let chars := cursor.rest.takeWhile p
  (chars, cursor.skip chars.length)

def skipWhile (cursor : Cursor) (p : Char → Bool) : Cursor := (cursor.run p).2

def skipSpaces (cursor : Cursor) : Cursor := cursor.skipWhile (· = ' ')

def skipLine (cursor : Cursor) : Cursor := cursor.skipWhile (!isBreak ·)

/-- A line break here, as the character that it stands for, and the place after it. -/
def lineBreak? (cursor : Cursor) : Option (Char × Cursor) :=
  match cursor.rest with
  | '\r' :: '\n' :: _ => some ('\n', cursor.skip 2)
  | c :: _ =>
    if c = '\u2028' || c = '\u2029' then some (c, cursor.advance)
    else if isBreak c then some ('\n', cursor.advance)
    else none
  | [] => none

/-- Whether three equal marks and a gap follow. -/
def atMarks (cursor : Cursor) (mark : Char) : Bool :=
  cursor.rest.take 3 == [mark, mark, mark] && cursor.gapAfter 3

/-- Whether a mark between documents follows. It is one at the start of a line only. -/
def atSeparator (cursor : Cursor) : Bool := cursor.atMarks '-' || cursor.atMarks '.'

end Cursor
end FieldTree.Yaml
