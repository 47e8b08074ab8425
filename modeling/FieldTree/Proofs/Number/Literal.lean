import FieldTree.Number.Literal
import Mathlib.Algebra.Group.Nat.Defs
import Mathlib.Data.List.TakeDrop
import Mathlib.Data.List.TakeWhile

/-! An integer is read back from its own text, as long as it has no more digits than are read. -/

namespace FieldTree

namespace Text

theorem digitValue?_of_isDigit {c : Char} (digit : c.isDigit = true) : digitValue? c = some (c.toNat - '0'.toNat) := by
  have range : 0x30 ≤ c.toNat ∧ c.toNat ≤ 0x39 := by
    simpa [Char.isDigit, UInt32.le_iff_toNat_le] using digit
  unfold digitValue? zeroCodes
  rw [List.find?_cons_of_pos (by simpa using range)]
  rfl

theorem isBlank_of_isDigit {c : Char} (digit : c.isDigit = true) : isBlank c = false := by
  have range : 0x30 ≤ c.toNat ∧ c.toNat ≤ 0x39 := by
    simpa [Char.isDigit, UInt32.le_iff_toNat_le] using digit
  simp only [isBlank, Bool.or_eq_false_iff, Bool.and_eq_false_iff, decide_eq_false_iff_not, beq_eq_false_iff_ne]
  omega

theorem isBlank_of_all {chars : List Char} (none : chars.all (!isBlank ·) = true) : ∀ c ∈ chars, isBlank c = false :=
  fun c among => by simpa using List.all_eq_true.mp none c among

/-- What stands around characters that are not of a kind is dropped, if it is of that kind. -/
theorem trimBy_append {p : Char → Bool} {left chars right : List Char} (before : ∀ c ∈ left, p c = true)
    (none : ∀ c ∈ chars, p c = false) (after : ∀ c ∈ right, p c = true) : trimBy p (left ++ chars ++ right) = chars := by
  have dropped : ∀ {around kept : List Char}, (∀ c ∈ around, p c = true) → (∀ c ∈ kept, p c = false) →
      ∀ {rest : List Char}, kept ≠ [] → (around ++ (kept ++ rest)).dropWhile p = kept ++ rest := by
    intro around kept all none rest some_kept
    obtain ⟨c, others, rfl⟩ := List.exists_cons_of_ne_nil some_kept
    rw [List.dropWhile_append_of_pos all]
    exact List.dropWhile_cons_of_neg (Bool.eq_false_iff.mp (none c List.mem_cons_self))
  by_cases empty : chars = []
  · have all : ∀ c ∈ left ++ right, p c = true := List.forall_mem_append.mpr ⟨before, after⟩
    rw [empty, List.append_nil, trimBy, List.dropWhile_eq_nil_iff.mpr all]
    rfl
  · have backwards : (chars ++ right).reverse = right.reverse ++ (chars.reverse ++ []) := by
      rw [List.reverse_append, List.append_nil]
    rw [trimBy, List.append_assoc, dropped before none empty, backwards,
      dropped (fun c among => after c (List.mem_reverse.mp among)) (fun c among => none c (List.mem_reverse.mp among))
        (by simpa using empty), List.append_nil, List.reverse_reverse]

theorem trimBy_ne_nil {p : Char → Bool} {chars : List Char} {c : Char} (among : c ∈ chars) (kept : p c = false) :
    trimBy p chars ≠ [] := by
  have left : chars.dropWhile p ≠ [] := by
    intro none
    have dropped := List.dropWhile_eq_nil_iff.mp none c among
    cases kept.symm.trans dropped
  intro empty
  have dropped := List.dropWhile_eq_nil_iff.mp (List.reverse_eq_nil_iff.mp empty) _
    (List.mem_reverse.mpr (List.head_mem left))
  cases (List.head_dropWhile_not p left).symm.trans dropped

theorem trimBy_of_forall {p : Char → Bool} {chars : List Char} (none : ∀ c ∈ chars, p c = false) :
    trimBy p chars = chars := by
  have alone := @trimBy_append p [] chars [] (by simp) none (by simp)
  rwa [List.nil_append, List.append_nil] at alone

end Text

namespace Literal
open Text

theorem run?_of_digits {chars : List Char} (some_digit : chars ≠ []) (digits : ∀ c ∈ chars, c.isDigit = true) :
    run? chars = some (chars.map fun c => c.toNat - '0'.toNat) := by
  induction chars with
  | nil => exact absurd rfl some_digit
  | cons c rest ih =>
    have here := digitValue?_of_isDigit (digits c List.mem_cons_self)
    have later := fun d among => digits d (List.mem_cons_of_mem c among)
    cases rest with
    | nil => simp [run?, here]
    | cons d rest =>
      have plain : d ≠ '_' := by
        rintro rfl
        cases later '_' List.mem_cons_self
      rw [run?]
      · simp [here, ih (List.cons_ne_nil _ _) later]
      all_goals simp_all

theorem value_digits (chars : List Char) :
    value (chars.map fun c => c.toNat - '0'.toNat) = Nat.ofDigitChars 10 chars 0 := by
  rw [value, List.foldl_map, Nat.ofDigitChars_eq_foldl]

theorem splitSign_of_isDigit {c : Char} (digit : c.isDigit = true) (rest : List Char) :
    splitSign (c :: rest) = (false, c :: rest) := by
  unfold splitSign
  split
  next same =>
    obtain ⟨rfl, _⟩ := List.cons.inj same
    cases digit
  next same =>
    obtain ⟨rfl, _⟩ := List.cons.inj same
    cases digit
  next => rfl

theorem splitSign_of_digits {chars : List Char} (digits : ∀ c ∈ chars, c.isDigit = true) :
    splitSign chars = (false, chars) := by
  cases chars with
  | nil => rfl
  | cons c rest => exact splitSign_of_isDigit (digits c List.mem_cons_self) rest

/-- The digits of a number, after a sign. -/
theorem intOfChars?_toDigits {chars : List Char} {negative : Bool} {n : Nat}
    (split : splitSign chars = (negative, Nat.toDigits 10 n)) :
    intOfChars? chars = if n < 10 ^ maxDigits then some (signed negative n) else none := by
  have digits := fun c => @Nat.isDigit_of_mem_toDigits 10 n c (by decide) (by decide)
  have short : ¬maxDigits < (Nat.toDigits 10 n).length ↔ n < 10 ^ maxDigits :=
    Nat.not_lt.trans (Nat.length_toDigits_le_iff (by decide) (by decide))
  simp only [intOfChars?, split, run?_of_digits Nat.toDigits_ne_nil digits, Option.bind_eq_bind, Option.bind_some,
    List.length_map, value_digits, Nat.ofDigitChars_ten_toDigits]
  split <;> simp_all

theorem toList_toString (n : Int) :
    (toString n).toList = (if n < 0 then ['-'] else []) ++ Nat.toDigits 10 n.natAbs := by
  cases n with
  | ofNat n =>
    have text : toString (Int.ofNat n) = String.ofList (Nat.toDigits 10 n) := Nat.toString_eq_ofList_toDigits
    have whole : ¬Int.ofNat n < 0 := Int.not_lt.mpr (Int.natCast_nonneg n)
    rw [text, String.toList_ofList, if_neg whole, List.nil_append]
    rfl
  | negSucc n =>
    have text : toString (Int.negSucc n) = String.ofList ['-'] ++ toString (n + 1) := rfl
    have size : toString (n + 1) = String.ofList (Nat.toDigits 10 (n + 1)) := Nat.toString_eq_ofList_toDigits
    rw [text, size, ← String.ofList_append, String.toList_ofList, if_pos (Int.negSucc_lt_zero n)]
    rfl

theorem minus_or_digit_of_mem_toString {n : Int} {c : Char} (among : c ∈ (toString n).toList) :
    c = '-' ∨ c.isDigit = true := by
  rw [toList_toString, List.mem_append] at among
  rcases among with sign | digit
  · split at sign
    · exact .inl (List.mem_singleton.mp sign)
    · cases sign
  · exact .inr (Nat.isDigit_of_mem_toDigits (by decide) (by decide) digit)

theorem isBlank_of_mem_toString {n : Int} {c : Char} (among : c ∈ (toString n).toList) : isBlank c = false := by
  rcases minus_or_digit_of_mem_toString among with rfl | digit
  · rfl
  · exact isBlank_of_isDigit digit

theorem splitSign_toString (n : Int) : splitSign (toString n).toList = (decide (n < 0), Nat.toDigits 10 n.natAbs) := by
  have digits := fun c => @Nat.isDigit_of_mem_toDigits 10 n.natAbs c (by decide) (by decide)
  rw [toList_toString]
  by_cases below : n < 0
  · simp only [below, ite_true, decide_true, List.singleton_append, splitSign]
  · simp only [below, ite_false, decide_false, List.nil_append, splitSign_of_digits digits]

theorem signed_natAbs (n : Int) : signed (decide (n < 0)) n.natAbs = n := by
  unfold signed
  split
  next below =>
    have below := of_decide_eq_true below
    omega
  next above =>
    have above : ¬n < 0 := by simpa using above
    omega

theorem intOfChars?_toString (n : Int) :
    intOfChars? (toString n).toList = if n.natAbs < 10 ^ maxDigits then some n else none := by
  rw [intOfChars?_toDigits (splitSign_toString n), signed_natAbs]

theorem toString_ne_empty (n : Int) : toString n ≠ "" := by
  intro empty
  have chars := toList_toString n
  rw [empty] at chars
  exact List.append_ne_nil_of_right_ne_nil _ Nat.toDigits_ne_nil chars.symm

theorem toString_eq_zero_iff {n : Int} : toString n = "0" ↔ n = 0 := by
  constructor
  · intro zero
    have digit : intOfChars? "0".toList = some 0 := rfl
    have read := intOfChars?_toString n
    rw [zero, digit] at read
    split at read
    · exact (Option.some.inj read).symm
    · cases read
  · rintro rfl
    rfl

/-- An integer is read from its text exactly if it has no more digits than are read. -/
theorem int?_toString (n : Int) : int? (toString n) = if n.natAbs < 10 ^ maxDigits then some n else none := by
  have plain : ∀ c ∈ (toString n).toList, (isBlank c && !isSeparator c) = false := by
    intro c among
    rw [isBlank_of_mem_toString among, Bool.false_and]
  rw [int?, trimBy_of_forall plain, intOfChars?_toString]

/-! Decimal numbers -/

/-- A run holds digits and underscores only. -/
theorem run?_of_mem {chars : List Char} {c : Char} (among : c ∈ chars) (no_digit : digitValue? c = none) (plain : c ≠ '_') :
    run? chars = none := by
  fun_induction run? chars with
  | case1 => cases among
  | case2 d rest ih =>
    rcases List.mem_cons.mp among with rfl | among
    · simp [no_digit]
    · simp [ih ((List.mem_cons.mp among).resolve_left plain)]
  | case3 d =>
    obtain rfl := List.mem_singleton.mp among
    simp [no_digit]
  | case4 d rest _ _ ih =>
    rcases List.mem_cons.mp among with rfl | among
    · simp [no_digit]
    · simp [ih among]

theorem intOfChars?_of_mem {chars : List Char} {c : Char} (among : c ∈ (splitSign chars).2) (no_digit : digitValue? c = none)
    (plain : c ≠ '_') : intOfChars? chars = none := by
  simp only [intOfChars?, run?_of_mem among no_digit plain]
  rfl

theorem optionalRun?_of_digits {chars : List Char} (digits : ∀ c ∈ chars, c.isDigit = true) :
    optionalRun? chars = some (chars.map fun c => c.toNat - '0'.toNat) := by
  cases chars with
  | nil => rfl
  | cons c rest => exact run?_of_digits (List.cons_ne_nil c rest) digits

theorem splitAtFirst_of_forall {p : Char → Bool} {chars : List Char} (absent : ∀ c ∈ chars, p c = false) :
    splitAtFirst p chars = (chars, none) := by
  have passed : ∀ c ∈ chars, (!p c) = true := fun c among => by rw [absent c among]; rfl
  rw [splitAtFirst, List.span_eq_takeWhile_dropWhile, List.takeWhile_eq_self_iff.mpr passed,
    List.dropWhile_eq_nil_iff.mpr passed]

theorem splitAtFirst_append {p : Char → Bool} {before after : List Char} {c : Char} (absent : ∀ c ∈ before, p c = false)
    (here : p c = true) : splitAtFirst p (before ++ c :: after) = (before, some after) := by
  have passed : ∀ c ∈ before, (!p c) = true := fun c among => by rw [absent c among]; rfl
  rw [splitAtFirst, List.span_eq_takeWhile_dropWhile, List.takeWhile_append_of_pos passed,
    List.dropWhile_append_of_pos passed]
  simp only [List.takeWhile_cons, List.dropWhile_cons, here, Bool.not_true, Bool.false_eq_true, ite_false, List.append_nil]

theorem decimalOfChars?_of_split {chars rest before after : List Char} {power : Option (List Char)} {negative : Bool}
    {exponent : Int} (sign : splitSign chars = (negative, rest))
    (split : splitAtFirst (fun c => c = 'e' || c = 'E') rest = (before ++ '.' :: after, power))
    (read : exponent? power = some exponent) (digits : ∀ c ∈ before ++ after, c.isDigit = true) (some_digit : before ≠ []) :
    decimalOfChars? chars =
      some (Double.ofDecimal negative (Nat.ofDigitChars 10 (before ++ after) 0) (exponent - after.length)) := by
  obtain ⟨digits_before, digits_after⟩ := List.forall_mem_append.mp digits
  have no_point : ∀ c ∈ before, decide (c = '.') = false := by
    intro c among
    refine decide_eq_false ?_
    rintro rfl
    cases digits_before '.' among
  have point : splitAtFirst (fun c => decide (c = '.')) (before ++ '.' :: after) = (before, some after) :=
    splitAtFirst_append no_point rfl
  have some_value : (before.map fun c => c.toNat - '0'.toNat).isEmpty = false := by simpa using some_digit
  simp only [decimalOfChars?, sign, split, point, read, Option.getD_some, optionalRun?_of_digits digits_before,
    optionalRun?_of_digits digits_after, Option.bind_eq_bind, Option.bind_some, some_value, Bool.false_and,
    ← List.map_append, value_digits, List.length_map]
  rfl

end Literal
end FieldTree
