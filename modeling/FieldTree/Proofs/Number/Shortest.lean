import FieldTree.Proofs.Number.Double
import FieldTree.Proofs.Number.Literal

/-! The text of a number is read as the same number, an integer or one of double precision as before. The exceptions are
texts without a point that are no integers: one digit with a power of ten, and the names of what is no finite number. -/

namespace FieldTree

namespace Double
open Literal

/-! The digits of a value -/

/-- The digits that are cut off are zeros. -/
theorem toDigits_eq_leadingDigits (decimal : Decimal) :
    ∃ cut, Nat.toDigits 10 decimal.coefficient = decimal.leadingDigits.2 ++ zeros cut := by
  let digits := Nat.toDigits 10 decimal.coefficient
  let last := digits.reverse.takeWhile (· = '0')
  have all_zero : last = zeros last.length := by
    refine List.eq_replicate_iff.mpr ⟨rfl, fun c (among : c ∈ digits.reverse.takeWhile (· = '0')) => ?_⟩
    exact of_decide_eq_true (@List.mem_takeWhile_imp _ (fun c => decide (c = '0')) _ _ among)
  refine ⟨last.length, ?_⟩
  calc
    digits = (last ++ digits.reverse.dropWhile (· = '0')).reverse := by
      rw [List.takeWhile_append_dropWhile, List.reverse_reverse]
    _ = decimal.leadingDigits.2 ++ last.reverse := List.reverse_append
    _ = decimal.leadingDigits.2 ++ zeros last.length := by
      rw [all_zero, zeros, List.reverse_replicate, List.length_replicate, zeros]

theorem ofDigitChars_zeros (value count : Nat) : Nat.ofDigitChars 10 (zeros count) value = value * 10 ^ count := by
  rw [zeros, Nat.ofDigitChars_replicate_zero, Nat.mul_comm]

theorem ofDecimal_leadingDigits (negative : Bool) (decimal : Decimal) :
    ofDecimal negative (Nat.ofDigitChars 10 decimal.leadingDigits.2 0)
      (decimal.leadingDigits.1 + 1 - decimal.leadingDigits.2.length) =
        ofDecimal negative decimal.coefficient decimal.exponent := by
  obtain ⟨cut, digits⟩ := toDigits_eq_leadingDigits decimal
  have exponent : decimal.leadingDigits.1 + 1 - decimal.leadingDigits.2.length = decimal.exponent + cut := by
    have first : decimal.leadingDigits.1 = decimal.exponent + (Nat.toDigits 10 decimal.coefficient).length - 1 := rfl
    rw [first, digits, List.length_append, zeros, List.length_replicate]
    push_cast
    omega
  have value : Nat.ofDigitChars 10 decimal.leadingDigits.2 0 * 10 ^ cut = decimal.coefficient := by
    rw [← ofDigitChars_zeros, ← Nat.ofDigitChars_append, ← digits, Nat.ofDigitChars_ten_toDigits]
  rw [exponent, ← ofDecimal_mul_pow, value]

/-- How a value is written, apart from its sign. -/
structure Written (rank : Fin finiteCount) (exponent : Int) (digits : List Char) : Prop where
  magnitude : magnitudeChars rank = layout exponent digits
  digit : ∀ c ∈ digits, c.isDigit = true
  some_digit : digits ≠ []
  reads : ∀ negative, ofDecimal negative (Nat.ofDigitChars 10 digits 0) (exponent + 1 - digits.length) =
    .finite negative rank

theorem written (rank : Fin finiteCount) : ∃ exponent digits, Written rank exponent digits := by
  by_cases zero : rank.val = 0
  · obtain rfl : rank = ⟨0, by decide⟩ := Fin.ext zero
    exact ⟨0, ['0'], rfl, List.forall_mem_singleton.mpr rfl, List.cons_ne_nil _ _, fun negative => rfl⟩
  · have positive := Nat.pos_of_ne_zero zero
    have magnitude : magnitudeChars rank = layout (shortest rank).leadingDigits.1 (shortest rank).leadingDigits.2 := by
      rw [magnitudeChars, if_neg zero]
    have reads := readsAs_shortest positive
    generalize shortest rank = decimal at magnitude reads
    obtain ⟨cut, digits⟩ := toDigits_eq_leadingDigits decimal
    refine ⟨_, _, magnitude, fun c among => ?_, fun none => ?_, fun negative => ?_⟩
    · exact Nat.isDigit_of_mem_toDigits (by decide) (by decide) (digits ▸ List.mem_append_left _ among)
    · have nothing : decimal.coefficient = 0 := by
        rw [none, List.nil_append] at digits
        rw [← @Nat.ofDigitChars_ten_toDigits decimal.coefficient, digits, ofDigitChars_zeros, Nat.zero_mul]
      have least : ofDecimal false decimal.coefficient decimal.exponent = .finite false ⟨0, by decide⟩ := by
        rw [nothing]
        rfl
      exact zero (congrArg Fin.val (Double.finite.inj (reads.symm.trans least)).2)
    · rw [ofDecimal_leadingDigits]
      exact ofDecimal_negative negative reads

/-! The layout of the digits -/

def powerText (exponent : Int) : List Char := if exponent = 0 then [] else 'e' :: exponentText exponent

/-- The digits stand around a point, filled up with zeros, before a power of ten that makes up for the point's place. -/
structure Pointed (exponent : Int) (digits before after : List Char) (power : Int) : Prop where
  form : layout exponent digits = before ++ '.' :: (after ++ powerText power)
  some_digit : before ≠ []
  filled : ∃ leading trailing : Nat, before ++ after = zeros leading ++ digits ++ zeros trailing ∧
    power - after.length + trailing = exponent + 1 - digits.length

/-- A digit that is written alone before a power of ten. -/
def Alone (exponent : Int) (digits : List Char) : Prop :=
  ∃ digit, digits = [digit] ∧ (exponent < -4 ∨ 16 ≤ exponent)

theorem Alone.form {exponent : Int} {digits : List Char} (alone : Alone exponent digits) :
    ∃ digit, digits = [digit] ∧ layout exponent digits = digit :: 'e' :: exponentText exponent := by
  obtain ⟨digit, rfl, outside⟩ := alone
  exact ⟨digit, rfl, by simp [layout, outside]⟩

/-- A digit alone has no point before its power of ten; everything else has one. -/
theorem alone_or_pointed (exponent : Int) {digits : List Char} (some_digit : digits ≠ []) :
    Alone exponent digits ∨ ∃ before after power, Pointed exponent digits before after power := by
  by_cases outside : (exponent < -4 || 16 ≤ exponent) = true
  · have power : exponent ≠ 0 := by
      rintro rfl
      cases outside
    match digits with
    | [digit] => exact .inl ⟨digit, rfl, by simpa using outside⟩
    | first :: second :: rest =>
      refine .inr ⟨[first], second :: rest, exponent, ?_, List.cons_ne_nil _ _, 0, 0, by simp [zeros], ?_⟩
      · simp [layout, outside, powerText, power]
      · simp only [List.length_cons]
        omega
  · refine .inr ?_
    by_cases below : exponent < 0
    · refine ⟨['0'], zeros (-exponent - 1).toNat ++ digits, 0, ?_, List.cons_ne_nil _ _, (-exponent - 1).toNat + 1, 0, ?_, ?_⟩
      · simp [layout, outside, below, powerText]
      · simp [zeros, List.replicate_succ]
      · simp [zeros]
        omega
    · by_cases short : digits.length ≤ exponent.toNat + 1
      · refine ⟨digits ++ zeros (exponent.toNat + 1 - digits.length), ['0'], 0, ?_, by simp [some_digit], 0,
          exponent.toNat + 1 - digits.length + 1, ?_, ?_⟩
        · simp [layout, outside, below, short, powerText]
        · simp [zeros, List.replicate_succ']
        · simp
          omega
      · refine ⟨digits.take (exponent.toNat + 1), digits.drop (exponent.toNat + 1), 0, ?_, by simp [some_digit], 0, 0, ?_, ?_⟩
        · simp [layout, outside, below, short, powerText]
        · simp [zeros]
        · simp
          omega

theorem exponent?_exponentText (exponent : Int) : exponent? (some (exponentText exponent)) = some exponent := by
  let digits := List.replicate (2 - (Nat.toDigits 10 exponent.natAbs).length) '0' ++ Nat.toDigits 10 exponent.natAbs
  have sign : splitSign (exponentText exponent) = (decide (exponent < 0), digits) := by
    unfold exponentText
    split <;> rename_i below <;> simp [splitSign, digits, below]
  have digit : ∀ c ∈ digits, c.isDigit = true := by
    refine List.forall_mem_append.mpr ⟨fun c among => ?_, fun c => Nat.isDigit_of_mem_toDigits (by decide) (by decide)⟩
    rw [List.eq_of_mem_replicate among]
    rfl
  have some_digit : digits ≠ [] := List.append_ne_nil_of_right_ne_nil _ Nat.toDigits_ne_nil
  have value : Nat.ofDigitChars 10 digits 0 = exponent.natAbs := by
    rw [Nat.ofDigitChars_append, Nat.ofDigitChars_replicate_zero, Nat.mul_zero, Nat.ofDigitChars_ten_toDigits]
  simp only [exponent?, sign, run?_of_digits some_digit digit, value_digits, value, Option.bind_eq_bind, Option.bind_some,
    signed_natAbs]
  rfl

theorem mem_exponentText {exponent : Int} {c : Char} (among : c ∈ exponentText exponent) :
    c ∈ ['+', '-'] ∨ c.isDigit = true := by
  simp only [exponentText, List.mem_append, List.mem_cons] at among
  rcases among with (sign | zero) | digit
  · left
    split at sign <;> simp [sign]
  · right
    rw [List.eq_of_mem_replicate zero]
    rfl
  · exact .inr (Nat.isDigit_of_mem_toDigits (by decide) (by decide) digit)

/-! Reading the text -/

section
variable {exponent power : Int} {digits before after : List Char} {negative : Bool} {chars : List Char}

theorem Pointed.digit (pointed : Pointed exponent digits before after power) (digit : ∀ c ∈ digits, c.isDigit = true) :
    ∀ c ∈ before ++ after, c.isDigit = true := by
  obtain ⟨leading, trailing, same, _⟩ := pointed.filled
  have zero : ∀ {count : Nat}, ∀ c ∈ zeros count, c.isDigit = true := by
    intro count c among
    rw [List.eq_of_mem_replicate among]
    rfl
  rw [same]
  exact List.forall_mem_append.mpr ⟨List.forall_mem_append.mpr ⟨zero, digit⟩, zero⟩

theorem Pointed.read (pointed : Pointed exponent digits before after power) (digit : ∀ c ∈ digits, c.isDigit = true)
    (sign : splitSign chars = (negative, layout exponent digits)) : decimalOfChars? chars =
      some (ofDecimal negative (Nat.ofDigitChars 10 digits 0) (exponent + 1 - digits.length)) := by
  have all_digits := pointed.digit digit
  have mantissa : ∀ c ∈ before ++ '.' :: after, (decide (c = 'e') || decide (c = 'E')) = false := by
    intro c among
    have plain : c = '.' ∨ c.isDigit = true := by
      rcases List.mem_append.mp among with first | rest
      · exact .inr (all_digits c (List.mem_append_left _ first))
      · exact (List.mem_cons.mp rest).imp_right fun last => all_digits c (List.mem_append_right _ last)
    refine Bool.eq_false_iff.mpr fun mark => ?_
    rcases plain with rfl | plain
    · cases mark
    · simp only [Bool.or_eq_true, decide_eq_true_eq] at mark
      rcases mark with rfl | rfl <;> cases plain
  have split : ∃ part, splitAtFirst (fun c => c = 'e' || c = 'E') (layout exponent digits) =
      (before ++ '.' :: after, part) ∧ exponent? part = some power := by
    have whole : layout exponent digits = (before ++ '.' :: after) ++ powerText power := by
      rw [pointed.form, List.append_assoc, List.cons_append]
    rw [whole, powerText]
    by_cases none : power = 0
    · rw [if_pos none, List.append_nil, none]
      exact ⟨_, splitAtFirst_of_forall mantissa, rfl⟩
    · rw [if_neg none]
      exact ⟨_, splitAtFirst_append mantissa rfl, exponent?_exponentText power⟩
  obtain ⟨part, split, read⟩ := split
  obtain ⟨leading, trailing, same, place⟩ := pointed.filled
  have value : Nat.ofDigitChars 10 (before ++ after) 0 = Nat.ofDigitChars 10 digits 0 * 10 ^ trailing := by
    rw [same, Nat.ofDigitChars_append, Nat.ofDigitChars_append, ofDigitChars_zeros, ofDigitChars_zeros, Nat.zero_mul]
  rw [decimalOfChars?_of_split sign split read all_digits pointed.some_digit, value, ofDecimal_mul_pow, place]

theorem mem_powerText {c : Char} (among : c ∈ powerText power) : c ∈ ['e', '+', '-'] ∨ c.isDigit = true := by
  unfold powerText at among
  split at among
  · cases among
  · rcases List.mem_cons.mp among with rfl | rest
    · exact .inl List.mem_cons_self
    · exact (mem_exponentText rest).imp_left (List.mem_cons_of_mem 'e')

theorem mem_layout (digit : ∀ c ∈ digits, c.isDigit = true) (some_digit : digits ≠ []) {c : Char}
    (among : c ∈ layout exponent digits) : c ∈ ['.', 'e', '+', '-'] ∨ c.isDigit = true := by
  rcases alone_or_pointed exponent some_digit with alone | ⟨before, after, power, pointed⟩
  · obtain ⟨first, rfl, form⟩ := alone.form
    rw [form] at among
    rcases List.mem_cons.mp among with rfl | rest
    · exact .inr (digit c List.mem_cons_self)
    · rcases List.mem_cons.mp rest with rfl | rest
      · exact .inl (by decide)
      · exact (mem_exponentText rest).imp_left fun sign => List.mem_cons_of_mem '.' (List.mem_cons_of_mem 'e' sign)
  · have all_digits := pointed.digit digit
    rw [pointed.form, List.mem_append, List.mem_cons, List.mem_append] at among
    rcases among with first | rfl | last | mark
    · exact .inr (all_digits c (List.mem_append_left _ first))
    · exact .inl List.mem_cons_self
    · exact .inr (all_digits c (List.mem_append_right _ last))
    · exact (mem_powerText mark).imp_left (List.mem_cons_of_mem '.')

theorem layout_head (digit : ∀ c ∈ digits, c.isDigit = true) (some_digit : digits ≠ []) :
    ∃ first rest, layout exponent digits = first :: rest ∧ first.isDigit = true := by
  rcases alone_or_pointed exponent some_digit with alone | ⟨before, after, power, pointed⟩
  · obtain ⟨first, rfl, form⟩ := alone.form
    exact ⟨first, _, form, digit first List.mem_cons_self⟩
  · obtain ⟨first, rest, rfl⟩ := List.exists_cons_of_ne_nil pointed.some_digit
    exact ⟨first, _, pointed.form, pointed.digit digit first List.mem_cons_self⟩

end

section
variable {rank : Fin finiteCount} {exponent : Int} {digits : List Char}

theorem Written.text (written : Written rank exponent digits) (negative : Bool) :
    (text (.finite negative rank)).toList = (if negative then ['-'] else []) ++ layout exponent digits := by
  rw [Double.text, String.toList_ofList, written.magnitude]
  cases negative <;> rfl

theorem Written.sign (written : Written rank exponent digits) (negative : Bool) :
    splitSign (Double.text (.finite negative rank)).toList = (negative, layout exponent digits) := by
  rw [written.text]
  cases negative with
  | true => rfl
  | false =>
    obtain ⟨first, rest, form, digit⟩ := layout_head written.digit written.some_digit
    rw [form]
    exact splitSign_of_isDigit digit rest

theorem Written.point_iff (written : Written rank exponent digits) (negative : Bool) :
    '.' ∈ (Double.text (.finite negative rank)).toList ↔ ¬Alone exponent digits := by
  have unsigned : '.' ∈ (Double.text (.finite negative rank)).toList ↔ '.' ∈ layout exponent digits := by
    rw [written.text]
    cases negative <;> simp
  rw [unsigned]
  constructor
  · rintro point alone
    obtain ⟨first, rfl, form⟩ := alone.form
    rw [form, List.mem_cons, List.mem_cons] at point
    rcases point with rfl | mark | power
    · cases written.digit '.' List.mem_cons_self
    · cases mark
    · rcases mem_exponentText power with sign | digit
      · exact absurd sign (by decide)
      · cases digit
  · intro others
    obtain ⟨before, after, power, pointed⟩ := (alone_or_pointed exponent written.some_digit).resolve_left others
    rw [pointed.form]
    exact List.mem_append_right before List.mem_cons_self

end

theorem isBlank_of_mem_text {value : Double} {c : Char} (among : c ∈ value.text.toList) : Text.isBlank c = false := by
  cases value with
  | nan => exact Text.isBlank_of_all rfl c among
  | infinite negative => cases negative <;> exact Text.isBlank_of_all rfl c among
  | finite negative rank =>
    obtain ⟨exponent, digits, written⟩ := written rank
    rw [written.text negative] at among
    rcases List.mem_append.mp among with sign | among
    · split at sign
      · rw [List.mem_singleton.mp sign]
        rfl
      · cases sign
    · rcases mem_layout written.digit written.some_digit among with mark | digit
      · exact Text.isBlank_of_all rfl c mark
      · exact Text.isBlank_of_isDigit digit

/-- A text with a point is read as the value, and one without is not taken for an integer. -/
theorem read_text (value : Double) :
    if '.' ∈ value.text.toList then decimalOfChars? value.text.toList = some value
    else intOfChars? value.text.toList = none := by
  cases value with
  | nan => decide
  | infinite negative => cases negative <;> decide
  | finite negative rank =>
    obtain ⟨exponent, digits, written⟩ := written rank
    have sign := written.sign negative
    by_cases alone : Alone exponent digits
    · rw [if_neg fun point => (written.point_iff negative).mp point alone]
      have mark : 'e' ∈ (splitSign (Double.text (.finite negative rank)).toList).2 := by
        obtain ⟨first, _, form⟩ := alone.form
        rw [sign, form]
        exact List.mem_cons_of_mem _ List.mem_cons_self
      exact intOfChars?_of_mem mark (by decide) (by decide)
    · obtain ⟨before, after, power, pointed⟩ := (alone_or_pointed exponent written.some_digit).resolve_left alone
      rw [if_pos ((written.point_iff negative).mpr alone), pointed.read written.digit sign, written.reads]

/-- No text is one digit alone. -/
theorem text_ne (value : Double) : value.text ≠ "" ∧ value.text ≠ "0" := by
  have some_text : value.text ≠ "" := by
    cases value with
    | nan => decide
    | infinite negative => cases negative <;> decide
    | finite negative rank =>
      obtain ⟨exponent, digits, written⟩ := written rank
      obtain ⟨first, rest, form, _⟩ := layout_head written.digit written.some_digit
      intro none
      have chars := written.text negative
      rw [none, form] at chars
      exact List.append_ne_nil_of_right_ne_nil _ (List.cons_ne_nil _ _) chars.symm
  refine ⟨some_text, fun zero => ?_⟩
  have read := read_text value
  rw [zero, if_neg (by decide)] at read
  exact absurd read (by decide)

end Double

namespace Number

/-- The text is read as a number: an integer is short enough, and a number of double precision shows a point. -/
def Legible : Number → Prop
  | .int value => value.natAbs < 10 ^ Literal.maxDigits
  | .float value => '.' ∈ value.text.toList

instance : DecidablePred Legible
  | .int value => inferInstanceAs (Decidable (value.natAbs < 10 ^ Literal.maxDigits))
  | .float value => inferInstanceAs (Decidable ('.' ∈ value.text.toList))

/-- A finite number of double precision cannot be read from its text exactly if it is written as one digit and a power of
ten. -/
theorem not_legible_iff (negative : Bool) (rank : Fin Double.finiteCount) :
    ¬(Number.float (.finite negative rank)).Legible ↔
      ∃ exponent digits, Double.Written rank exponent digits ∧ Double.Alone exponent digits := by
  obtain ⟨exponent, digits, written⟩ := Double.written rank
  constructor
  · exact fun illegible => ⟨exponent, digits, written, Classical.not_not.mp (mt (written.point_iff negative).mpr illegible)⟩
  · rintro ⟨exponent, digits, other, alone⟩ legible
    exact (other.point_iff negative).mp legible alone

theorem isBlank_of_mem_text {number : Number} {c : Char} (among : c ∈ number.text.toList) : Text.isBlank c = false := by
  cases number with
  | int => exact Literal.isBlank_of_mem_toString among
  | float => exact Double.isBlank_of_mem_text among

end Number

namespace Literal
open Text

/-- Blanks around a text are not read. -/
theorem number?_append {left text right : String} (before : ∀ c ∈ left.toList, isBlank c = true)
    (plain : ∀ c ∈ text.toList, isBlank c = false) (after : ∀ c ∈ right.toList, isBlank c = true) :
    number? (left ++ text ++ right) = number? text := by
  simp only [number?, trim, String.toList_append, trimBy_append before plain after, trimBy_of_forall plain]

/-- A number is read from its text as it was, or not at all. -/
theorem number?_text (number : Number) : number? number.text = if number.Legible then some number else none := by
  have plain := fun c => @Number.isBlank_of_mem_text number c
  rw [number?, trim, trimBy_of_forall plain]
  cases number with
  | int value =>
    have no_point : (Number.text (.int value)).toList.contains '.' = false := by
      refine Bool.eq_false_iff.mpr fun point => ?_
      rcases minus_or_digit_of_mem_toString (List.contains_iff_mem.mp point) with minus | digit
      · cases minus
      · cases digit
    have read : intOfChars? (Number.text (.int value)).toList = if value.natAbs < 10 ^ maxDigits then some value else none :=
      intOfChars?_toString value
    have legible : (Number.int value).Legible ↔ value.natAbs < 10 ^ maxDigits := Iff.rfl
    simp only [no_point, Bool.false_eq_true, ite_false, read, legible]
    by_cases short : value.natAbs < 10 ^ maxDigits
    · rw [if_pos short, if_pos short, Option.map_some]
    · rw [if_neg short, if_neg short, Option.map_none]
  | float value =>
    have read := Double.read_text value
    simp only [Number.text, List.contains_iff_mem, Number.Legible]
    split at read
    next point => simp only [point, ite_true, read, Option.map_some]
    next none => simp only [none, ite_false, read, Option.map_none]

end Literal
end FieldTree
