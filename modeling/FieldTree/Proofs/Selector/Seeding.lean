import FieldTree.Selector.Basic

/-! The first word that is drawn from a key, without the state that it is drawn from: the words of the state are
given place by place, as the passes over it make them. -/

namespace FieldTree

namespace Twister

/-- The words of a state, told by their places. -/
structure Holds (words : Array UInt32) (told : Nat → UInt32) : Prop where
  size : words.size = size
  word : ∀ {place}, place < Twister.size → word words place = told place

namespace Holds

variable {words : Array UInt32} {told : Nat → UInt32} {place : Nat}

theorem set (holds : Holds words told) (inside : place < Twister.size) (value : UInt32) :
    Holds (words.setIfInBounds place value) (fun other => if other = place then value else told other) where
  size := by rw [Array.size_setIfInBounds, holds.size]
  word {other} bound := by
    have same := holds.word bound
    simp only [Twister.word, Nat.mod_eq_of_lt bound] at same ⊢
    by_cases here : other = place
    · subst here
      simp [holds.size, inside]
    · rw [Array.getElem?_setIfInBounds_ne (Ne.symm here), if_neg here, same]

theorem congr {told' : Nat → UInt32} (holds : Holds words told)
    (same : ∀ place, place < Twister.size → told place = told' place) : Holds words told' :=
  ⟨holds.size, fun inside => (holds.word inside).trans (same _ inside)⟩

end Holds

/-! The state of a single word -/

/-- The words that a word determines, each from the one before. -/
def series (seed : UInt32) : Nat → UInt32
  | 0 => seed
  | n + 1 => 1812433253 * mixed (series seed n) + UInt32.ofNat (n + 1)

theorem holds_ofWord (seed : UInt32) : Holds (ofWord seed) (series seed) := by
  have grown : ∀ n, n + 1 ≤ size →
      let words := (List.range n).foldl
        (fun words index => words.push (1812433253 * mixed (word words index) + UInt32.ofNat (index + 1))) #[seed]
      words.size = n + 1 ∧ ∀ place, place ≤ n → words[place]? = some (series seed place) := by
    intro n
    induction n with
    | zero => simp [series]
    | succ n ih =>
      intro bound
      obtain ⟨length, told⟩ := ih (by omega)
      simp only [List.range_succ, List.foldl_append, List.foldl_cons, List.foldl_nil]
      generalize (List.range n).foldl _ _ = words at length told ⊢
      have last : word words n = series seed n := by
        simp [word, Nat.mod_eq_of_lt (show n < size by omega), told n (Nat.le_refl n)]
      refine ⟨by simp [length], fun place inside => ?_⟩
      rw [Array.getElem?_push, length, last]
      split
      · next new => rw [new, series]
      · exact told place (by omega)
  obtain ⟨length, told⟩ := grown (size - 1) (by decide)
  refine ⟨length, fun {place} inside => ?_⟩
  simp only [word, Nat.mod_eq_of_lt inside]
  rw [ofWord, told place (by omega)]
  rfl

/-! A pass over the state -/

/-- The words that a pass makes, from the words that it meets: each from the one it meets and the one before. -/
def swept (factor : UInt32) (change : Nat → UInt32 → UInt32) (met : Nat → UInt32) : Nat → UInt32
  | 0 => met 0
  | n + 1 => change n (met (n + 1) ^^^ (mixed (swept factor change met n) * factor))

theorem stir_of_lt {words : Array UInt32} {told : Nat → UInt32} {index : Nat} (holds : Holds words told)
    (inside : index + 1 < size) (factor : UInt32) (change : UInt32 → UInt32) :
    (stir factor change words index).2 = index + 1 ∧
      Holds (stir factor change words index).1 (fun place =>
        if place = index then change (told index ^^^ (mixed (told (index - 1)) * factor)) else told place) := by
  have here : word words index = told index := holds.word (by omega)
  have before : word words (index - 1) = told (index - 1) := holds.word (by omega)
  simp only [stir, advance, if_pos inside, here, before]
  exact ⟨trivial, holds.set (by omega) _⟩

/-- At the end of the cycle the first word takes the value of the last. -/
theorem stir_of_last {words : Array UInt32} {told : Nat → UInt32} {index : Nat} (holds : Holds words told)
    (last : index + 1 = size) (factor : UInt32) (change : UInt32 → UInt32) :
    (stir factor change words index).2 = 1 ∧
      Holds (stir factor change words index).1 (fun place =>
        if place = 0 ∨ place = index then change (told index ^^^ (mixed (told (index - 1)) * factor)) else told place) := by
  have here : word words index = told index := holds.word (by omega)
  have before : word words (index - 1) = told (index - 1) := holds.word (by omega)
  have stirred := holds.set (show index < size by omega) (change (told index ^^^ (mixed (told (index - 1)) * factor)))
  have place : size - 1 = index := by omega
  simp only [stir, advance, show ¬index + 1 < size by omega, if_false, here, before, place]
  refine ⟨trivial, (stirred.set (by decide) _).congr fun other inside => ?_⟩
  rw [stirred.word (by omega), if_pos rfl]
  by_cases first : other = 0
  · rw [if_pos first, if_pos (.inl first)]
  · by_cases same : other = index
    · rw [if_neg first, if_pos same, if_pos (.inr same)]
    · rw [if_neg first, if_neg same, if_neg (not_or.mpr ⟨first, same⟩)]

/-- One turn of a pass over the state. -/
def turn (factor : UInt32) (change : Nat → Nat → UInt32 → UInt32) (state : Array UInt32 × Nat) (turn : Nat) :
    Array UInt32 × Nat :=
  stir factor (change turn state.2) state.1 state.2

section Pass

variable {words : Array UInt32} {told : Nat → UInt32} {start : Nat} (factor : UInt32)
  (change : Nat → Nat → UInt32 → UInt32)

/-- The words that a pass from a place on makes, that place being the one before the first that is changed. -/
def made (told : Nat → UInt32) (start : Nat) : Nat → UInt32 :=
  swept factor (fun turn => change turn (start + 1 + turn)) (fun met => told (start + met))

theorem made_succ (told : Nat → UInt32) (start n : Nat) :
    made factor change told start (n + 1) =
      change n (start + 1 + n) (told (start + 1 + n) ^^^ (mixed (made factor change told start n) * factor)) := by
  rw [made, swept, show start + (n + 1) = start + 1 + n by omega]

theorem holds_turns (holds : Holds words told) (n : Nat) (inside : start + 1 + n < size) :
    let state := (List.range n).foldl (turn factor change) (words, start + 1)
    state.2 = start + 1 + n ∧
      Holds state.1 (fun place =>
        if start ≤ place ∧ place ≤ start + n then made factor change told start (place - start) else told place) := by
  induction n with
  | zero =>
    refine ⟨rfl, holds.congr fun place _ => ?_⟩
    split
    · next here =>
      obtain rfl : place = start := by omega
      simp [made, swept]
    · rfl
  | succ n ih =>
    obtain ⟨index, told'⟩ := ih (by omega)
    simp only [List.range_succ, List.foldl_append, List.foldl_cons, List.foldl_nil]
    generalize (List.range n).foldl (turn factor change) (words, start + 1) = state at index told' ⊢
    obtain ⟨words', _⟩ := state
    obtain rfl := index
    obtain ⟨next, stirred⟩ := @stir_of_lt words' _ (start + 1 + n) told' (by omega) factor (change n (start + 1 + n))
    refine ⟨next, stirred.congr fun place _ => ?_⟩
    -- The word that is met has not been changed, and the one before it has just been made.
    rw [if_neg (show ¬(start ≤ start + 1 + n ∧ start + 1 + n ≤ start + n) by omega),
      if_pos (show start ≤ start + 1 + n - 1 ∧ start + 1 + n - 1 ≤ start + n by omega),
      show start + 1 + n - 1 - start = n by omega]
    by_cases here : place = start + 1 + n
    · rw [if_pos here, if_pos (by omega), show place - start = n + 1 by omega, made_succ]
    · rw [if_neg here]
      by_cases before : start ≤ place ∧ place ≤ start + n
      · rw [if_pos before, if_pos (by omega)]
      · rw [if_neg before, if_neg (by omega)]

/-- What a whole pass leaves: the last word that it makes also in the first place, from where the cycle goes on. -/
def passed (told : Nat → UInt32) (start place : Nat) : UInt32 :=
  let made := made factor change told start
  let last := made (size - 1 - start)
  if place = 0 then last
  else if place = 1 then change (size - 1 - start) 1 (made (1 - start) ^^^ (mixed last * factor))
  else made (place - start)

/-- A pass up to the end of the cycle. -/
theorem holds_cycle (holds : Holds words told) (early : start ≤ 1) :
    let state := (List.range (size - 1 - start)).foldl (turn factor change) (words, start + 1)
    state.2 = 1 ∧ Holds state.1 fun place =>
      if place = 0 then made factor change told start (size - 1 - start)
      else if start ≤ place then made factor change told start (place - start) else told place := by
  have bound : size = 624 := rfl
  obtain ⟨index, told'⟩ := @holds_turns words told start factor change holds (size - 2 - start) (by omega)
  have last := made_succ factor change told start (size - 2 - start)
  rw [show size - 2 - start + 1 = size - 1 - start by omega, show start + 1 + (size - 2 - start) = size - 1 by omega] at last
  rw [show size - 1 - start = size - 2 - start + 1 by omega]
  simp only [List.range_succ, List.foldl_append, List.foldl_cons, List.foldl_nil]
  generalize (List.range (size - 2 - start)).foldl (turn factor change) (words, start + 1) = state at index told' ⊢
  obtain ⟨words', _⟩ := state
  rw [show start + 1 + (size - 2 - start) = size - 1 by omega] at index
  obtain rfl := index
  obtain ⟨next, closed⟩ := @stir_of_last words' _ (size - 1) told' (by omega) factor (change (size - 2 - start) (size - 1))
  refine ⟨next, closed.congr fun place inside => ?_⟩
  rw [if_neg (show ¬(start ≤ size - 1 ∧ size - 1 ≤ start + (size - 2 - start)) by omega),
    if_pos (show start ≤ size - 1 - 1 ∧ size - 1 - 1 ≤ start + (size - 2 - start) by omega),
    show size - 1 - 1 - start = size - 2 - start by omega, ← last, show size - 2 - start + 1 = size - 1 - start by omega]
  by_cases first : place = 0
  · rw [if_pos (.inl first), if_pos first]
  · by_cases final : place = size - 1
    · rw [if_pos (.inr final), if_neg first, if_pos (by omega), final]
    · rw [if_neg (by omega), if_neg first]
      by_cases changed : start ≤ place
      · rw [if_pos (by omega), if_pos changed]
      · rw [if_neg (by omega), if_neg changed]

theorem holds_pass (holds : Holds words told) (early : start ≤ 1) :
    let state := (List.range (size - start)).foldl (turn factor change) (words, start + 1)
    state.2 = 2 ∧ Holds state.1 (passed factor change told start) := by
  have bound : size = 624 := rfl
  obtain ⟨index, told'⟩ := holds_cycle factor change holds early
  rw [show size - start = size - 1 - start + 1 by omega]
  simp only [List.range_succ, List.foldl_append, List.foldl_cons, List.foldl_nil]
  generalize (List.range (size - 1 - start)).foldl (turn factor change) (words, start + 1) = state at index told' ⊢
  obtain ⟨words', _⟩ := state
  obtain rfl := index
  obtain ⟨next, stirred⟩ := @stir_of_lt words' _ 1 told' (by decide) factor (change (size - 1 - start) 1)
  refine ⟨next, stirred.congr fun place inside => ?_⟩
  unfold passed
  by_cases first : place = 0
  · simp [first]
  · by_cases second : place = 1
    · simp [second, early]
    · simp [first, second, show start ≤ place by omega]

end Pass

/-! The state of a key, and the first word drawn from it -/

/-- How the first pass over the state takes in the words of a key. -/
def taking (key : Array UInt32) (turn _index : Nat) (word : UInt32) : UInt32 :=
  word + key[turn % key.size]?.getD 0 + UInt32.ofNat (turn % key.size)

/-- How the second pass takes away the place of a word. -/
def leaving (_turn index : Nat) (word : UInt32) : UInt32 := word - UInt32.ofNat index

/-- The words that a key determines, apart from the first: those of a fixed word after two passes. -/
def keyed (key : Array UInt32) : Nat → UInt32 :=
  passed 1566083941 leaving (passed 1664525 (taking key) (series 19650218) 0) 1

theorem holds_ofKey {key : Array UInt32} (short : key.size ≤ size) :
    (ofKey key).used = size ∧
      Holds (ofKey key).words (fun place => if place = 0 then 0x80000000 else keyed key place) := by
  have first := holds_pass 1664525 (taking key) (holds_ofWord 19650218) (Nat.zero_le 1)
  have passes : ofKey key =
      let first := (List.range (max size key.size)).foldl (turn 1664525 (taking key)) (ofWord 19650218, 1)
      let second := (List.range (size - 1)).foldl (turn 1566083941 leaving) first
      ⟨second.1.setIfInBounds 0 0x80000000, size⟩ := rfl
  rw [passes, Nat.max_eq_left short]
  simp only [Nat.sub_zero, Nat.zero_add] at first
  generalize (List.range size).foldl (turn 1664525 (taking key)) (ofWord 19650218, 1) = state at first ⊢
  obtain ⟨words, _⟩ := state
  obtain ⟨rfl, told⟩ := first
  have second := (holds_pass 1566083941 leaving told (Nat.le_refl 1)).2
  dsimp only
  refine ⟨rfl, ?_⟩
  unfold keyed
  exact second.set (by decide) _

/-- The word that comes first of the words of a state when they are renewed. -/
def renewedFirst (told : Nat → UInt32) : UInt32 :=
  let joined := (told 0 &&& 0x80000000) ||| (told 1 &&& 0x7fffffff)
  told 397 ^^^ (joined >>> 1) ^^^ (if joined &&& 1 = 1 then 0x9908b0df else 0)

/-- All other words come after the first, and leave it as it is. -/
theorem word_renewed {words : Array UInt32} {told : Nat → UInt32} (holds : Holds words told) :
    word (renewed words) 0 = renewedFirst told := by
  have kept {change : Array UInt32 → Nat → UInt32} (indices : List Nat) (words : Array UInt32) :
      word ((indices.map Nat.succ).foldl (fun words index => words.setIfInBounds index (change words index)) words) 0 =
        word words 0 := by
    induction indices generalizing words with
    | nil => rfl
    | cons index rest ih =>
      rw [List.map_cons, List.foldl_cons, ih]
      simp [word]
  have first := (holds.set (show 0 < size by decide) (renewedFirst told)).word (show 0 < size by decide)
  rw [if_pos rfl] at first
  rw [renewed, show size = 623 + 1 from rfl, List.range_succ_eq_map, List.foldl_cons, kept, ← first]
  simp only [renewedFirst, holds.word (show 0 < size by decide), holds.word (show 0 + 1 < size by decide),
    holds.word (show 0 + 397 < size by decide)]

/-- The first word that is drawn from a key. -/
def firstDraw (key : Array UInt32) : UInt32 :=
  tempered (renewedFirst fun place => if place = 0 then 0x80000000 else keyed key place)

theorem next_ofKey {key : Array UInt32} (short : key.size ≤ size) : (next (ofKey key)).1 = firstDraw key := by
  obtain ⟨used, holds⟩ := holds_ofKey short
  simp only [next, used, Nat.lt_irrefl, if_false, word_renewed holds, firstDraw]

/-! Choices -/

/-- A narrow number is in the highest bits of one word. -/
theorem bits_of_narrow {width : Nat} (positive : 0 < width) (narrow : width < 32) (twister : Twister) :
    (bits width twister).1 = (next twister).1.toNat >>> (32 - width) := by
  have once : (width + 31) / 32 = 0 + 1 := by omega
  simp [bits, once, List.range_succ, narrow]

theorem below_of_lt {bound tries : Nat} {twister : Twister} (small : (bits (bound.log2 + 1) twister).1 < bound) :
    (below bound (tries + 1) twister).1 = (bits (bound.log2 + 1) twister).1 := by
  simp only [below, small, if_true]

end Twister

namespace Selector
open Twister

theorem random_choose {count : Nat} (positive : 0 < count) (twister : Twister) :
    random.choose count twister = .ok (((below count tries twister).1 : Int), (below count tries twister).2) := by
  have some_branch : ¬(count : Int) ≤ 0 := by omega
  simp only [random, some_branch, if_false, Int.toNat_natCast]

/-- The first choice among two branches, if the first word that is drawn gives one. -/
theorem random_choose_two {seed : Int} (short : (keyWords seed.natAbs).size ≤ size) {index : Nat} (small : index < 2)
    (drawn : (firstDraw (keyWords seed.natAbs)).toNat >>> 30 = index) :
    random.choose 2 (ofSeed seed) = .ok (index, (below 2 tries (ofSeed seed)).2) := by
  have bits : (Twister.bits (Nat.log2 2 + 1) (ofSeed seed)).1 = index := by
    rw [show Nat.log2 2 + 1 = 2 by decide, bits_of_narrow (by decide) (by decide), ofSeed, next_ofKey short,
      show 32 - 2 = 30 by decide, drawn]
  have chosen : (below 2 tries (ofSeed seed)).1 = index := by
    rw [show tries = 4095 + 1 by decide, below_of_lt (by omega), bits]
  have choice := random_choose (show 0 < 2 by decide) (ofSeed seed)
  rw [show ((2 : Nat) : Int) = 2 from rfl, chosen] at choice
  exact choice

end Selector
end FieldTree
