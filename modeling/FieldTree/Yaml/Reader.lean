import FieldTree.Yaml.Node
import FieldTree.Yaml.Token
/-! YAML values from tokens. Each function takes a number of rounds that is more than it needs for the tokens
there are. What is left out is null. -/

namespace FieldTree.Yaml

/-- The tokens to come, what handles stand for, and what anchors do. The node of an anchor is missing as long
as it is being read, so that no node contains itself. -/
structure ReaderState where
  tokens : List Token
  handles : List (String × String)
  anchors : List (String × Option Node)

abbrev Reader := StateT ReaderState (Except Fault)

namespace Reader

def fail {α : Type} : Reader α := throw .malformed

def peek : Reader Token := do
  match (← get).tokens with
  | .failed fault :: _ => throw fault
  | token :: _ => return token
  | [] => fail

def skip : Reader Unit := modify fun s => { s with tokens := s.tokens.tail }

/-- Whether one of these tokens follows. -/
def follows (ends : List Token) : Reader Bool := return ends.contains (← peek)

/-- Whether the token follows. If it does it is left behind. -/
def accept (token : Token) : Reader Bool := do
  if (← peek) = token then
    skip
    return true
  else return false

def expect (token : Token) : Reader Unit := do
  if !(← accept token) then fail

/-! Properties -/

structure Properties where
  anchor : Option String
  tag : Option String

def anchor? : Reader (Option String) := do
  match ← peek with
  | .anchor name =>
    skip
    return some name
  | _ => return none

/-- The two handles that need not be declared. -/
def commonHandles : List (String × String) := [("!", "!"), ("!!", Tag.commonPrefix)]

def tag? : Reader (Option (Option String × String)) := do
  match ← peek with
  | .tag handle suffix =>
    skip
    return some (handle, suffix)
  | _ => return none

/-- A tag in full. -/
def fullTag : Option String × String → Reader String
  | (none, name) => return name
  | (some handle, suffix) => do
    match ((← get).handles ++ commonHandles).lookup handle with
    | some base => return base ++ suffix
    | none => fail

/-- An anchor, a tag, or both in either order. -/
def properties : Reader Properties := do
  let first ← anchor?
  let tag ← tag?
  let anchor ← if first.isNone && tag.isSome then anchor? else pure first
  return ⟨anchor, ← tag.mapM fullTag⟩

/-- The tag that says only that a node is tagged, so that it has its tag from its looks. -/
def openTag : String := "!"

def Properties.tagOr (properties : Properties) (common : Tag) : Tag :=
  match properties.tag with
  | none => common
  | some name => if name = openTag then common else Tag.ofName name

def Properties.scalar (properties : Properties) (inQuotes : Bool) (text : String) : Node :=
  let common := if inQuotes && properties.tag ≠ some openTag then .str else Tag.ofWord text.toList
  .scalar (properties.tagOr common) text

/-- Opens an anchor, which must be a new one. -/
def declare (name : String) : Reader Unit := do
  if ((← get).anchors.lookup name).isSome then fail
  modify fun s => { s with anchors := (name, none) :: s.anchors }

def define (name : String) (node : Node) : Reader Unit :=
  modify fun s => { s with anchors := (name, some node) :: s.anchors }

def anchored (name : String) : Reader Node := do
  match (← get).anchors.lookup name with
  | some (some node) => return node
  | _ => fail

/-! Nodes -/

/-- Whether another part of a collection in brackets follows. What closes it, and the comma before the part,
are left behind. -/
def another (isFirst : Bool) (close : Token) : Reader Bool := do
  if ← accept close then return false
  if !isFirst then
    expect .comma
    if ← accept close then return false
  return true

mutual
/-- A node. Only outside brackets it may be a block; as a part of a mapping, also items that are not indented. -/
def node : Nat → Bool → Bool → Reader Node
  | 0, _, _ => fail
  | rounds + 1, inBlock, inMapping => do
    match ← peek with
    | .alias name =>
      skip
      anchored name
    | _ =>
      let properties ← properties
      let _ ← peek
      properties.anchor.forM declare
      let node ← content rounds inBlock inMapping properties
      properties.anchor.forM (define · node)
      return node

/-- What follows the properties. After an anchor or a tag it may be left out. -/
def content : Nat → Bool → Bool → Properties → Reader Node
  | 0, _, _, _ => fail
  | rounds + 1, inBlock, inMapping, properties => do
    match ← peek, inBlock, inMapping with
    | .word chars, _, _ =>
      skip
      return properties.scalar false (String.ofList chars)
    | .text value, _, _ =>
      skip
      return properties.scalar true value
    | .openFlowSequence, _, _ =>
      skip
      return .sequence (properties.tagOr .seq) (← flowItems rounds true)
    | .openFlowMapping, _, _ =>
      skip
      return .mapping (properties.tagOr .map) (← flowEntries rounds true)
    | .openSequence, true, _ =>
      skip
      return .sequence (properties.tagOr .seq) (← items rounds)
    | .openMapping, true, _ =>
      skip
      return .mapping (properties.tagOr .map) (← entries rounds)
    | .item, _, true => return .sequence (properties.tagOr .seq) (← plainItems rounds)
    | _, _, _ =>
      if properties.anchor.isNone && properties.tag.isNone then fail
      return properties.scalar false ""

/-- A node, or null if one of the tokens follows that end it. -/
def nodeUnless : Nat → Bool → Bool → List Token → Reader Node
  | 0, _, _, _ => fail
  | rounds + 1, inBlock, inMapping, ends => do
    if ← follows ends then return .null else node rounds inBlock inMapping

/-- The node after a mark, or null without the mark. -/
def valueAfter : Nat → Bool → List Token → Reader Node
  | 0, _, _ => fail
  | rounds + 1, inBlock, ends => do
    if ← accept .value then nodeUnless rounds inBlock inBlock ends else return .null

def items : Nat → Reader (List Node)
  | 0 => fail
  | rounds + 1 => do
    if ← accept .item then
      let item ← nodeUnless rounds true false [.item, .closeBlock]
      return item :: (← items rounds)
    else
      expect .closeBlock
      return []

/-- Items without a block of their own end before the first token that is none. -/
def plainItems : Nat → Reader (List Node)
  | 0 => fail
  | rounds + 1 => do
    if ← accept .item then
      let item ← nodeUnless rounds true false [.item, .key, .value, .closeBlock]
      return item :: (← plainItems rounds)
    else return []

def entries : Nat → Reader (List (Node × Node))
  | 0 => fail
  | rounds + 1 => do
    if ← accept .key then
      let ends := [.key, .value, .closeBlock]
      let key ← nodeUnless rounds true true ends
      let value ← valueAfter rounds true ends
      return (key, value) :: (← entries rounds)
    else
      expect .closeBlock
      return []

/-- A key in brackets after its mark, and its value. -/
def flowPair : Nat → Token → Reader (Node × Node)
  | 0, _ => fail
  | rounds + 1, close => do
    let key ← nodeUnless rounds false false [.value, .comma, close]
    return (key, ← valueAfter rounds false [.comma, close])

/-- Items in brackets. A key among them makes a mapping of one entry. -/
def flowItems : Nat → Bool → Reader (List Node)
  | 0, _ => fail
  | rounds + 1, isFirst => do
    if !(← another isFirst .closeFlowSequence) then return []
    let item ←
      if ← accept .key then pure (.mapping .map [← flowPair rounds .closeFlowSequence])
      else node rounds false false
    return item :: (← flowItems rounds false)

/-- Entries in braces. A node that is not told to be a key is one all the same. -/
def flowEntries : Nat → Bool → Reader (List (Node × Node))
  | 0, _ => fail
  | rounds + 1, isFirst => do
    if !(← another isFirst .closeFlowMapping) then return []
    let entry ←
      if ← accept .key then flowPair rounds .closeFlowMapping
      else pure (← node rounds false false, .null)
    return entry :: (← flowEntries rounds false)
end

/-! Documents -/

/-- The directives before a document. There may be one version, which has to be of the first kind, and one
meaning of a handle. -/
def directives : Nat → Bool → Reader Unit
  | 0, _ => fail
  | rounds + 1, hasVersion => do
    match ← peek with
    | .directive directive =>
      skip
      match directive with
      | .version major =>
        if hasVersion || major ≠ 1 then fail
        directives rounds true
      | .handle name base =>
        if ((← get).handles.lookup name).isSome then fail
        modify fun s => { s with handles := (name, base) :: s.handles }
        directives rounds hasVersion
      | .other => directives rounds hasVersion
    | _ => return

/-- The one document of a text, between marks or without. A text without a document is null. -/
def document (rounds : Nat) : Reader Node := do
  let node ← match ← peek with
    | .textEnd => pure Node.null
    | .documentStart => afterDirectives
    | .directive _ => afterDirectives
    | _ => node rounds true false
  modify fun s => { s with tokens := s.tokens.dropWhile (· = .documentEnd) }
  expect .textEnd
  return node
where
  isDocumentMark : Token → Bool
    | .documentStart => true
    | .documentEnd => true
    | .directive _ => true
    | .textEnd => true
    | _ => false
  afterDirectives : Reader Node := do
    directives rounds false
    expect .documentStart
    if isDocumentMark (← peek) then return .null else node rounds true false

end Reader

def read (text : String) : Except Fault Yaml := do
  let tokens := Token.ofChars text.toList
  let (node, _) ← (Reader.document (8 * tokens.length + 8)).run ⟨tokens, [], []⟩
  node.read (tokens.length + 1)

end FieldTree.Yaml
