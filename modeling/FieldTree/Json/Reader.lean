import FieldTree.Json.Token
/-! JSON values from text. Open brackets are kept on a stack of bounded height; a text that does not
denote exactly one value denotes none. -/

namespace FieldTree.Json.Reader

/-- What is known of an open bracket. Items are held in reverse. -/
inductive Frame
  | array (items : List Json)
  | object (members : Members) (key : String)

/-- What may come next. -/
inductive Awaiting
  | value
  | itemOrClose
  | keyOrClose
  | key
  | colon
  | separator
  | nothing (value : Json)

structure State where
  frames : List Frame
  awaiting : Awaiting

/-- A complete value goes into the innermost open bracket. -/
def supply (frames : List Frame) (value : Json) : State :=
  match frames with
  | [] => ⟨[], .nothing value⟩
  | .array items :: outer => ⟨.array (value :: items) :: outer, .separator⟩
  | .object members key :: outer => ⟨.object (members.insert key value) key :: outer, .separator⟩

def atValue (limit : Nat) (frames : List Frame) : Token → Option State
  | .atom value => some (supply frames value)
  | .text value => some (supply frames (.string value))
  | .openArray => if frames.length < limit then some ⟨.array [] :: frames, .itemOrClose⟩ else none
  | .openObject => if frames.length < limit then some ⟨.object [] "" :: frames, .keyOrClose⟩ else none
  | _ => none

def close (frames : List Frame) : Token → Option State
  | .closeArray => match frames with
    | .array items :: outer => some (supply outer (.array items.reverse))
    | _ => none
  | .closeObject => match frames with
    | .object members _ :: outer => some (supply outer (.object members))
    | _ => none
  | _ => none

def atKey (frames : List Frame) : Token → Option State
  | .text key => match frames with
    | .object members _ :: outer => some ⟨.object members key :: outer, .colon⟩
    | _ => none
  | _ => none

def step (limit : Nat) (state : State) (token : Token) : Option State :=
  match state.awaiting, token with
  | .value, token => atValue limit state.frames token
  | .itemOrClose, .closeArray => close state.frames .closeArray
  | .itemOrClose, token => atValue limit state.frames token
  | .keyOrClose, .closeObject => close state.frames .closeObject
  | .keyOrClose, token => atKey state.frames token
  | .key, token => atKey state.frames token
  | .colon, .colon => some ⟨state.frames, .value⟩
  | .separator, .comma => match state.frames with
    | .array _ :: _ => some ⟨state.frames, .value⟩
    | .object _ _ :: _ => some ⟨state.frames, .key⟩
    | [] => none
  | .separator, token => close state.frames token
  | _, _ => none

def finish (state : State) : Option Json :=
  match state.awaiting with
  | .nothing value => some value
  | _ => none

end Reader

/-- How many brackets may be open at once. -/
def maxNesting : Nat := 4999

/-- The value of a text in which at most `limit` brackets are open at once. -/
def readWithin? (limit : Nat) (text : String) : Option Json := do
  let tokens ← Token.ofChars? text.toList
  (← tokens.foldlM (Reader.step limit) ⟨[], .value⟩) |> Reader.finish

def read? (text : String) : Option Json := readWithin? maxNesting text

end FieldTree.Json
