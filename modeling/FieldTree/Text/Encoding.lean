/-! Bytes and text. Codes come before characters, because an encoding may carry halves of a surrogate
pair, which are no characters. -/

namespace FieldTree.Text

def isHighHalf (code : Nat) : Bool := 0xd800 ≤ code && code < 0xdc00

def isLowHalf (code : Nat) : Bool := 0xdc00 ≤ code && code < 0xe000

/-- A high half and the low half after it are one code. -/
def joinPairs : List Nat → List Nat
  | [] => []
  | [code] => [code]
  | high :: low :: rest =>
    if isHighHalf high && isLowHalf low then
      (0x10000 + (high - 0xd800) * 0x400 + (low - 0xdc00)) :: joinPairs rest
    else high :: joinPairs (low :: rest)

/-- The replacement character stands for a half without its other half. -/
def charOfCode (code : Nat) : Char :=
  if code.isValidChar then Char.ofNat code else '\ufffd'

def ofCodes (codes : List Nat) : String := String.ofList (codes.map charOfCode)

/-- Text of codes in which halves may come in pairs, as they do in every encoding that lets them through. -/
def ofUnits (units : List Nat) : String := ofCodes (joinPairs units)

/-- A sequence of bytes that is not complete: how many bytes are missing, the code so far, and the least
code that may be written at this length. -/
structure Pending where
  missing : Nat
  code : Nat
  least : Nat

/-- Codes in reverse, and an incomplete sequence. -/
structure Utf8 where
  codes : List Nat
  pending : Option Pending

namespace Utf8

def lead? (codes : List Nat) (byte : Nat) : Option Utf8 :=
  if byte < 0x80 then some ⟨byte :: codes, none⟩
  else if 0xc2 ≤ byte && byte < 0xe0 then some ⟨codes, some ⟨1, byte - 0xc0, 0x80⟩⟩
  else if 0xe0 ≤ byte && byte < 0xf0 then some ⟨codes, some ⟨2, byte - 0xe0, 0x800⟩⟩
  else if 0xf0 ≤ byte && byte < 0xf5 then some ⟨codes, some ⟨3, byte - 0xf0, 0x10000⟩⟩
  else none

def step (state : Utf8) (byte : UInt8) : Option Utf8 :=
  let byte := byte.toNat
  match state.pending with
  | none => lead? state.codes byte
  | some ⟨missing, code, least⟩ =>
    if byte < 0x80 || 0xc0 ≤ byte then none
    else
      let code := code * 64 + (byte - 0x80)
      if missing ≤ 1 then
        if least ≤ code && code ≤ 0x10ffff then some ⟨code :: state.codes, none⟩ else none
      else some ⟨state.codes, some ⟨missing - 1, code, least⟩⟩

end Utf8

/-- The codes of a UTF-8 text, halves of pairs included. -/
def utf8Codes? (bytes : List UInt8) : Option (List Nat) := do
  let state ← bytes.foldlM Utf8.step ⟨[], none⟩
  if state.pending.isSome then none else return state.codes.reverse

/-- The text of UTF-8 bytes without halves of pairs. -/
def ofUtf8? (bytes : List UInt8) : Option String := do
  let codes ← utf8Codes? bytes
  if codes.any fun code => isHighHalf code || isLowHalf code then none else return ofCodes codes

def toUtf8 (text : String) : List UInt8 := text.toUTF8.toList

inductive ByteOrder
  | big
  | little

def ByteOrder.code (order : ByteOrder) (bytes : List UInt8) : Nat :=
  match order with
  | .big => bytes.foldl (fun code byte => code * 256 + byte.toNat) 0
  | .little => bytes.foldr (fun byte code => code * 256 + byte.toNat) 0

def utf16Units? (order : ByteOrder) : List UInt8 → Option (List Nat)
  | [] => some []
  | a :: b :: rest => (utf16Units? order rest).map (order.code [a, b] :: ·)
  | _ => none

def utf32Codes? (order : ByteOrder) : List UInt8 → Option (List Nat)
  | [] => some []
  | a :: b :: c :: d :: rest => do
    let code := order.code [a, b, c, d]
    if 0x10ffff < code then none
    return code :: (← utf32Codes? order rest)
  | _ => none

inductive Encoding
  | utf8
  | utf16 (order : ByteOrder)
  | utf32 (order : ByteOrder)

/-- The encoding that a byte order mark names, without the mark; else the one that the places of zero
bytes give away, when the text starts with two characters below 256. -/
def Encoding.detect : List UInt8 → Encoding × List UInt8
  | 0x00 :: 0x00 :: 0xfe :: 0xff :: rest => (.utf32 .big, rest)
  | 0xff :: 0xfe :: 0x00 :: 0x00 :: rest => (.utf32 .little, rest)
  | 0xfe :: 0xff :: rest => (.utf16 .big, rest)
  | 0xff :: 0xfe :: rest => (.utf16 .little, rest)
  | 0xef :: 0xbb :: 0xbf :: rest => (.utf8, rest)
  | bytes => (
    match bytes with
    | a :: b :: c :: d :: _ =>
      if a = 0 then if b = 0 then .utf32 .big else .utf16 .big
      else if b = 0 then if c = 0 && d = 0 then .utf32 .little else .utf16 .little
      else .utf8
    | [a, b] => if a = 0 then .utf16 .big else if b = 0 then .utf16 .little else .utf8
    | _ => .utf8, bytes)

def Encoding.decode? : Encoding → List UInt8 → Option String
  | .utf8, bytes => (utf8Codes? bytes).map ofUnits
  | .utf16 order, bytes => (utf16Units? order bytes).map ofUnits
  | .utf32 order, bytes => (utf32Codes? order bytes).map ofUnits

/-- The text of bytes whose encoding is not told. -/
def decode? (bytes : List UInt8) : Option String :=
  let (encoding, rest) := Encoding.detect bytes
  encoding.decode? rest

end FieldTree.Text
