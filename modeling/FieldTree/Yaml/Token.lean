import FieldTree.Yaml.Property
import FieldTree.Yaml.Scalar
/-! The tokens of YAML text. Indentation opens and closes blocks. Whether a scalar or a collection is a key
shows only at the colon after it, so that places where a key may have begun are kept until then. -/

namespace FieldTree.Yaml

inductive Token
  | documentStart
  | documentEnd
  | openSequence
  | openMapping
  | closeBlock
  | openFlowSequence
  | closeFlowSequence
  | openFlowMapping
  | closeFlowMapping
  | item
  | comma
  | key
  | value
  | word (chars : List Char)
  | text (value : String)
  | anchor (name : String)
  | alias (name : String)
  | tag (handle : Option String) (suffix : String)
  | directive (directive : Directive)
  | textEnd
  /-- From here on there are no tokens. -/
  | failed (fault : Fault)
  deriving DecidableEq

/-- A place where a key may have begun: how many tokens come before it, and whether there has to be one. -/
structure KeyPlace where
  tokens : Nat
  isRequired : Bool
  index : Nat
  line : Nat
  column : Nat

structure Scanner where
  cursor : Cursor
  tokens : Array Token
  /-- How many brackets are open. -/
  depth : Nat
  indent : Int
  outerIndents : List Int
  /-- Whether a key may begin here. -/
  allowsKey : Bool
  /-- By the number of open brackets around it. -/
  keys : List (Nat × KeyPlace)

namespace Scanner

def inFlow (s : Scanner) : Bool := 0 < s.depth

def emit (s : Scanner) (token : Token) : Scanner := { s with tokens := s.tokens.push token }

/-- The next character alone is the token. -/
def emitNext (s : Scanner) (token : Token) : Scanner := { s.emit token with cursor := s.cursor.advance }

/-- Spaces, comments and line ends. Outside brackets a key may begin on a new line. -/
def toToken : Nat → Scanner → Scanner
  | 0, s => s
  | rounds + 1, s =>
    let place := s.cursor.skipSpaces
    let place := if place.isAt '#' then place.skipLine else place
    match place.lineBreak? with
    | some (_, after) => toToken rounds { s with cursor := after, allowsKey := s.allowsKey || !s.inFlow }
    | none => { s with cursor := place }

/-- Closes the blocks that are indented more. -/
def closeBlocks (s : Scanner) (column : Int) : Scanner :=
  if s.inFlow then s
  else
    let closed := (s.indent :: s.outerIndents).takeWhile (column < ·)
    match (s.indent :: s.outerIndents).drop closed.length with
    | [] => s
    | indent :: outerIndents =>
      { s with indent, outerIndents, tokens := s.tokens ++ (closed.map fun _ => Token.closeBlock).toArray }

/-- Opens a block at a column that is indented more, with the token put in at a place. -/
def openBlock (s : Scanner) (column : Int) (place : Nat) (token : Token) : Scanner :=
  if s.indent < column then
    { s with indent := column, outerIndents := s.indent :: s.outerIndents
             tokens := s.tokens.insertIdxIfInBounds place token }
  else s

/-- A key is written on one line, in at most this many characters. -/
def maxKeyLength : Nat := 1024

def isStale (cursor : Cursor) (key : KeyPlace) : Bool :=
  key.line ≠ cursor.line || key.index + maxKeyLength < cursor.index

/-- Gives up the places that are too far back. One that has to be a key is an error. -/
def dropStale (s : Scanner) : Except Fault Scanner :=
  if s.keys.any fun (_, key) => isStale s.cursor key && key.isRequired then .error .malformed
  else .ok { s with keys := s.keys.filter fun (_, key) => !isStale s.cursor key }

/-- Gives up the place on this level, if there is one. -/
def dropKey (s : Scanner) : Except Fault Scanner :=
  if s.keys.any fun (depth, key) => depth = s.depth && key.isRequired then .error .malformed
  else .ok { s with keys := s.keys.filter fun (depth, _) => depth ≠ s.depth }

/-- Notes that a key may begin here. -/
def saveKey (s : Scanner) : Except Fault Scanner :=
  if s.allowsKey then do
    let s ← s.dropKey
    let place : KeyPlace := {
      tokens := s.tokens.size, isRequired := !s.inFlow && s.indent = s.cursor.column
      index := s.cursor.index, line := s.cursor.line, column := s.cursor.column }
    return { s with keys := (s.depth, place) :: s.keys }
  else .ok s

def flowOpening (s : Scanner) (token : Token) : Except Fault Scanner := do
  let s ← s.saveKey
  return { s.emitNext token with depth := s.depth + 1, allowsKey := true }

def flowClosing (s : Scanner) (token : Token) : Except Fault Scanner := do
  let s ← s.dropKey
  if s.depth = 0 then throw .malformed
  return { s.emitNext token with depth := s.depth - 1, allowsKey := false }

def flowComma (s : Scanner) : Except Fault Scanner := do
  let s ← s.dropKey
  return { s.emitNext .comma with allowsKey := true }

/-- Outside brackets, an item or a key opens a block unless it goes on with one. -/
def blockMark (s : Scanner) (opening mark : Token) (allowsKey : Bool) : Except Fault Scanner := do
  if !s.inFlow && !s.allowsKey then throw .malformed
  let s := if s.inFlow then s else s.openBlock s.cursor.column s.tokens.size opening
  let s ← s.dropKey
  return { s.emitNext mark with allowsKey }

/-- The colon after a key. Its key, and the mapping if it is the first, are put in before what has turned out
to be the key. -/
def valueMark (s : Scanner) : Except Fault Scanner :=
  match s.keys.lookup s.depth with
  | some key =>
    let s := { s with
      keys := s.keys.filter fun (depth, _) => depth ≠ s.depth
      tokens := s.tokens.insertIdxIfInBounds key.tokens .key }
    let s := if s.inFlow then s else s.openBlock key.column key.tokens .openMapping
    .ok { s.emitNext .value with allowsKey := false }
  | none => s.blockMark .openMapping .value (!s.inFlow)

def separator (s : Scanner) (token : Token) : Except Fault Scanner := do
  let s ← (s.closeBlocks (-1)).dropKey
  return { s.emit token with cursor := s.cursor.skip 3, allowsKey := false }

def blockScalar (s : Scanner) (isFolded : Bool) (rounds : Nat) : Except Fault Scanner := do
  let s ← s.dropKey
  let (chars, place) ← block isFolded s.indent rounds s.cursor.advance
  return { s.emit (.text (String.ofList chars)) with cursor := place, allowsKey := true }

def quotedScalar (s : Scanner) (quote : Char) (rounds : Nat) : Except Fault Scanner := do
  let s ← s.saveKey
  let (codes, place) ← quoted quote rounds s.cursor.advance
  return { s.emit (.text (Text.ofUnits codes)) with cursor := place, allowsKey := false }

def plainScalar (s : Scanner) (rounds : Nat) : Except Fault Scanner := do
  let s ← s.saveKey
  let scalar := plain s.inFlow (s.indent + 1) rounds s.cursor false
  return { s.emit (.word scalar.chars) with cursor := scalar.next, allowsKey := scalar.newLine }

/-- An anchor, an alias or a tag. A key may begin with it. -/
def property (s : Scanner) (read : Except Fault (Token × Cursor)) : Except Fault Scanner := do
  let s ← s.saveKey
  let (token, place) ← read
  return { s.emit token with cursor := place, allowsKey := false }

def directive (s : Scanner) : Except Fault Scanner := do
  let s ← (s.closeBlocks (-1)).dropKey
  let (directive, place) ← Property.directive s.cursor.advance
  return { s.emit (.directive directive) with cursor := place, allowsKey := false }

/-- Characters that begin something else than a word. -/
def isIndicator (c : Char) : Bool := "-?:,[]\x7b\x7d#&*!|>'\"%@\x60".toList.contains c

/-- Whether a word begins here. A dash does when no gap follows, and outside brackets so do a question mark
and a colon. -/
def atWord (s : Scanner) (c : Char) : Bool :=
  !isIndicator c || (!s.cursor.gapAfter 1 && (c = '-' || (!s.inFlow && (c = '?' || c = ':'))))

/-- The token that begins with this character. -/
def token (s : Scanner) (rounds : Nat) (c : Char) : Except Fault Scanner :=
  let gap := s.cursor.gapAfter 1
  let name := Property.anchor s.cursor.advance
  if s.cursor.column = 0 && c = '%' then s.directive
  else if s.cursor.column = 0 && s.cursor.atMarks '-' then s.separator .documentStart
  else if s.cursor.column = 0 && s.cursor.atMarks '.' then s.separator .documentEnd
  else if c = '[' then s.flowOpening .openFlowSequence
  else if c = '{' then s.flowOpening .openFlowMapping
  else if c = ']' then s.flowClosing .closeFlowSequence
  else if c = '}' then s.flowClosing .closeFlowMapping
  else if c = ',' then s.flowComma
  else if c = '-' && gap then s.blockMark .openSequence .item true
  else if c = '?' && (s.inFlow || gap) then s.blockMark .openMapping .key (!s.inFlow)
  else if c = ':' && (s.inFlow || gap) then s.valueMark
  else if c = '*' then s.property (name.map fun (name, place) => (.alias name, place))
  else if c = '&' then s.property (name.map fun (name, place) => (.anchor name, place))
  else if c = '!' then
    s.property ((Property.tag s.cursor).map fun ((handle, suffix), place) => (.tag handle suffix, place))
  else if c = '|' && !s.inFlow then s.blockScalar false rounds
  else if c = '>' && !s.inFlow then s.blockScalar true rounds
  else if c = '\'' || c = '"' then s.quotedScalar c rounds
  else if s.atWord c && !isGap c then s.plainScalar rounds
  else .error .malformed

def finish (s : Scanner) : Except Fault Scanner := do
  let s ← (← s.dropStale).closeBlocks (-1) |>.dropKey
  return s.emit .textEnd

/-- How many tokens are certain to have nothing put in before or among them. -/
def settled (s : Scanner) : Nat := s.keys.foldl (fun count (_, key) => min count key.tokens) s.tokens.size

/-- The tokens up to a fault. Those that are not settled are lost. -/
def failed (s : Scanner) (fault : Fault) : List Token := s.tokens.toList.take s.settled ++ [.failed fault]

/-- All tokens from here to the end. -/
def scan : Nat → Scanner → List Token
  | 0, s => s.failed .malformed
  | rounds + 1, s =>
    match s.dropStale with
    | .error fault => s.failed fault
    | .ok s =>
      let here := s.toToken rounds
      match here.cursor.peek? with
      | none =>
        match here.finish with
        | .ok s => s.tokens.toList
        | .error fault => s.failed fault
      | some c =>
        match here.dropStale >>= fun here => (here.closeBlocks here.cursor.column).token rounds c with
        | .ok next => scan rounds next
        | .error fault => s.failed fault

end Scanner

/-- Characters that may be written: those with a shape, and the usual blanks. -/
def isReadable (c : Char) : Bool :=
  c = '\t' || c = '\n' || c = '\r' || (' ' ≤ c && c ≤ '~') || c = '\x85' || ('\xa0' ≤ c && c ≤ '\ufffd') ||
    0x10000 ≤ c.toNat

/-- The tokens of a text. The last of them is the end of the text or a fault. -/
def Token.ofChars (chars : List Char) : List Token :=
  if chars.all isReadable then
    let start := Cursor.start chars
    let start := if start.isAt '\ufeff' then start.advance else start
    Scanner.scan (chars.length + 2) ⟨start, #[], 0, -1, [], true, []⟩
  else [.failed .malformed]

end FieldTree.Yaml
