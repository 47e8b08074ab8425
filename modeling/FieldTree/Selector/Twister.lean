/-! A reproducible source of random words, the Mersenne Twister with 624 words of state. -/

namespace FieldTree

/-- The state words, and how many of them have been used since they were last renewed. -/
structure Twister where
  words : Array UInt32
  used : Nat

namespace Twister

def size : Nat := 624

def word (words : Array UInt32) (index : Nat) : UInt32 := words[index % size]?.getD 0

def mixed (word : UInt32) : UInt32 := word ^^^ (word >>> 30)

/-- The state that a single word determines. -/
def ofWord (seed : UInt32) : Array UInt32 :=
  (List.range (size - 1)).foldl
    (fun words index => words.push (1812433253 * mixed (word words index) + UInt32.ofNat (index + 1))) #[seed]

/-- A place in the cycle through the state words after the first. When the cycle closes, the first word
takes the value of the last. -/
def advance (words : Array UInt32) (index : Nat) : Array UInt32 × Nat :=
  if index + 1 < size then (words, index + 1) else (words.setIfInBounds 0 (word words (size - 1)), 1)

def stir (factor : UInt32) (change : UInt32 → UInt32) (words : Array UInt32) (index : Nat) :
    Array UInt32 × Nat :=
  let value := change (word words index ^^^ (mixed (word words (index - 1)) * factor))
  advance (words.setIfInBounds index value) index

/-- The state that a key of one or more words determines. -/
def ofKey (key : Array UInt32) : Twister :=
  let first := (List.range (max size key.size)).foldl
    (fun (words, index) turn =>
      let place := turn % key.size
      stir 1664525 (· + key[place]?.getD 0 + UInt32.ofNat place) words index)
    (ofWord 19650218, 1)
  let second := (List.range (size - 1)).foldl
    (fun (words, index) _ => stir 1566083941 (· - UInt32.ofNat index) words index) first
  ⟨second.1.setIfInBounds 0 0x80000000, size⟩

/-- The words of a number, the least significant first. -/
def keyWords (n : Nat) : Array UInt32 :=
  ((List.range ((n.log2 + 32) / 32)).map fun index => UInt32.ofNat (n >>> (32 * index))).toArray

/-- The sign of a seed makes no difference. -/
def ofSeed (seed : Int) : Twister := ofKey (keyWords seed.natAbs)

def renewed (words : Array UInt32) : Array UInt32 :=
  (List.range size).foldl
    (fun words index =>
      let joined := (word words index &&& 0x80000000) ||| (word words (index + 1) &&& 0x7fffffff)
      let odd : UInt32 := if joined &&& 1 = 1 then 0x9908b0df else 0
      words.setIfInBounds index (word words (index + 397) ^^^ (joined >>> 1) ^^^ odd))
    words

def tempered (word : UInt32) : UInt32 :=
  let word := word ^^^ (word >>> 11)
  let word := word ^^^ ((word <<< 7) &&& 0x9d2c5680)
  let word := word ^^^ ((word <<< 15) &&& 0xefc60000)
  word ^^^ (word >>> 18)

def next (twister : Twister) : UInt32 × Twister :=
  let current := if twister.used < size then twister else ⟨renewed twister.words, 0⟩
  (tempered (word current.words current.used), ⟨current.words, current.used + 1⟩)

/-- A number of the given width in bits. Words fill it from the least significant end, and the last word
gives its most significant bits. -/
def bits (width : Nat) (twister : Twister) : Nat × Twister :=
  let fill := fun ((value, twister) : Nat × Twister) (index : Nat) =>
    let (drawn, twister) := next twister
    let left := width - 32 * index
    let part := if left < 32 then drawn.toNat >>> (32 - left) else drawn.toNat
    (value + part <<< (32 * index), twister)
  (List.range ((width + 31) / 32)).foldl fill (0, twister)

/-- Draws until the number is below the bound. At least every second draw is, so that the tries run out
only in theory. -/
def below (bound : Nat) : Nat → Twister → Nat × Twister
  | 0, twister => (0, twister)
  | tries + 1, twister =>
    let (value, twister) := bits (bound.log2 + 1) twister
    if value < bound then (value, twister) else below bound tries twister

theorem below_lt {bound : Nat} (positive : 0 < bound) (tries : Nat) (twister : Twister) :
    (below bound tries twister).1 < bound := by
  induction tries generalizing twister with
  | zero => exact positive
  | succ tries ih =>
    rw [below]
    split
    split
    · assumption
    · exact ih _

end Twister
end FieldTree
