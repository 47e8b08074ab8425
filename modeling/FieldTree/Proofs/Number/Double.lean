import FieldTree.Number.Shortest
import Mathlib.Algebra.Order.Ring.Nat
import Mathlib.Tactic.Ring

/-! Reading a decimal number depends on its value alone, not on how many zeros it is written with, and every finite value
is the one nearest to itself. So the decimal that is chosen for a value is read as that value. -/

namespace FieldTree.Double

/-! Decimal length -/

theorem decimalLength_le_iff {n count : Nat} (some_digit : 0 < count) : decimalLength n ≤ count ↔ n < 10 ^ count :=
  Nat.length_toDigits_le_iff (by decide) some_digit

theorem decimalLength_mul_ten {n : Nat} (positive : 0 < n) : decimalLength (10 * n) = decimalLength n + 1 := by
  have digits := @Nat.toDigits_append_toDigits 10 n 0 (by decide) positive (by decide)
  rw [Nat.add_zero] at digits
  rw [decimalLength, ← digits, List.length_append]
  rfl

theorem decimalLength_mul_pow {n : Nat} (positive : 0 < n) (zeros : Nat) :
    decimalLength (n * 10 ^ zeros) = decimalLength n + zeros := by
  induction zeros with
  | zero => rw [Nat.pow_zero, Nat.mul_one, Nat.add_zero]
  | succ zeros ih =>
    have moved : n * 10 ^ (zeros + 1) = 10 * (n * 10 ^ zeros) := by ring
    rw [moved, decimalLength_mul_ten (Nat.mul_pos positive (Nat.pow_pos (by decide))), ih, Nat.add_assoc]

/-! Rounding -/

/-- Only the quotient counts, not how it is written. -/
theorem nearestRank_mul (num den : Nat) {factor : Nat} (positive : 0 < factor) :
    nearestRank (num * factor) (den * factor) = nearestRank num den := by
  have scales : ∀ step, den * factor * step = den * step * factor := fun step => Nat.mul_right_comm den factor step
  simp only [nearestRank, Nat.mul_div_mul_right _ _ positive, scales, Nat.mul_mod_mul_right, ← Nat.mul_assoc,
    Nat.mul_lt_mul_right positive, Nat.mul_left_inj (Nat.pos_iff_ne_zero.mp positive)]

theorem nearestRank_congr {num den num' den' : Nat} (positive : 0 < den) (positive' : 0 < den')
    (same : num * den' = num' * den) : nearestRank num den = nearestRank num' den' := by
  rw [← nearestRank_mul num den positive', ← nearestRank_mul num' den' positive, same, Nat.mul_comm den den']

theorem units_of_lt {rank : Nat} (low : rank < blockSize) : units rank = rank := by
  have quotient : rank / blockSize = 0 := Nat.div_eq_of_lt low
  simp only [units, significand, quantum, low, ite_true, quotient, Nat.zero_sub, Nat.pow_eq, Nat.pow_zero, Nat.mul_one]

theorem units_of_le {rank : Nat} (high : blockSize ≤ rank) :
    units rank = (blockSize + rank % blockSize) * 2 ^ (rank / blockSize - 1) := by
  simp only [units, significand, quantum, Nat.not_lt.mpr high, ite_false, Nat.pow_eq]

/-- A multiple of a power of two, with a factor of fifty-three binary digits, is its own rank. -/
theorem nearestRank_mul_pow {factor exponent : Nat} (low : blockSize ≤ factor) (high : factor < 2 * blockSize) :
    nearestRank (factor * 2 ^ exponent) 1 = exponent * blockSize + factor := by
  have positive : 0 < 2 ^ exponent := Nat.pow_pos (by decide)
  have scale : (factor * 2 ^ exponent).log2 - 52 = exponent := by
    have nonzero : factor * 2 ^ exponent ≠ 0 := Nat.mul_ne_zero (by rintro rfl; exact absurd low (by decide)) positive.ne'
    have size : (factor * 2 ^ exponent).log2 = 52 + exponent := by
      rw [Nat.log2_eq_iff nonzero, Nat.pow_succ, Nat.pow_add]
      constructor
      · exact Nat.mul_le_mul_right _ low
      · rw [Nat.mul_assoc, Nat.mul_comm (2 ^ exponent), ← Nat.mul_assoc]
        exact Nat.mul_lt_mul_of_pos_right (by rw [Nat.mul_comm]; exact high) positive
    rw [size, Nat.add_sub_cancel_left]
  simp only [nearestRank, Nat.div_one, scale, Nat.pow_eq, Nat.one_mul, Nat.mul_div_cancel _ positive, Nat.mul_mod_left,
    Nat.mul_zero, Nat.not_lt_zero, positive.ne', decide_false, Bool.false_and, Bool.or_false, Bool.false_eq_true,
    ite_false, Nat.add_zero]

/-- A value is the nearest to itself. -/
theorem nearestRank_units (rank : Nat) : nearestRank (units rank) 1 = rank := by
  by_cases low : rank < blockSize
  · have scale : rank.log2 - 52 = 0 := by
      by_cases zero : rank = 0
      · rw [zero]
        rfl
      · have small : rank.log2 < 52 := (Nat.log2_lt zero).mpr low
        omega
    simp only [units_of_lt low, nearestRank, Nat.div_one, scale, Nat.pow_eq, Nat.pow_zero, Nat.mul_one, Nat.mod_one,
      Nat.mul_zero]
    simp
  · have high := Nat.not_lt.mp low
    have positive : 0 < blockSize := by decide
    rw [units_of_le high, nearestRank_mul_pow (Nat.le_add_right _ _)
      (by have := Nat.mod_lt rank positive; omega)]
    have block : 0 < rank / blockSize := Nat.div_pos high positive
    have whole := Nat.div_add_mod rank blockSize
    obtain ⟨before, same⟩ := Nat.exists_eq_succ_of_ne_zero block.ne'
    rw [same] at whole ⊢
    rw [Nat.succ_sub_one, ← Nat.add_assoc, ← Nat.succ_mul, Nat.mul_comm]
    exact whole

/-! The size of a value -/

theorem units_pos {rank : Nat} (positive : 0 < rank) : 0 < units rank := by
  by_cases low : rank < blockSize
  · rwa [units_of_lt low]
  · rw [units_of_le (Nat.not_lt.mp low)]
    exact Nat.mul_pos (Nat.add_pos_left (by decide) _) (Nat.pow_pos (by decide))

theorem isZero_of_toInt? {value : Double} (zero : value.toInt? = some 0) : value.isZero = true := by
  cases value with
  | nan => cases zero
  | infinite => cases zero
  | finite negative rank =>
    refine beq_iff_eq.mpr (Nat.eq_zero_of_not_pos fun positive => ?_)
    unfold toInt? at zero
    dsimp only at zero
    split at zero
    next divisible =>
      have whole : (units rank / unitsPerOne : Int) = 0 := by
        have signed := Option.some.inj zero
        split at signed
        · exact Int.neg_eq_zero.mp signed
        · exact signed
      have quotient : units rank / unitsPerOne = 0 := by exact_mod_cast whole
      have size := Nat.div_add_mod (units rank) unitsPerOne
      rw [quotient, divisible, Nat.mul_zero] at size
      exact Nat.ne_of_lt (units_pos positive) size
    next => cases zero

/-! Decimal numbers -/

/-- Zeros at the end of the coefficient are told by the exponent as well. -/
theorem ofDecimal_mul_pow (negative : Bool) (coefficient zeros : Nat) (exponent : Int) :
    ofDecimal negative (coefficient * 10 ^ zeros) exponent = ofDecimal negative coefficient (exponent + zeros) := by
  by_cases zero : coefficient = 0
  · simp [ofDecimal, zero]
  · have positive := Nat.pos_of_ne_zero zero
    have length : (decimalLength (coefficient * 10 ^ zeros) : Int) + exponent =
        decimalLength coefficient + (exponent + zeros) := by
      rw [decimalLength_mul_pow positive]
      push_cast
      omega
    have nonzero : coefficient * 10 ^ zeros ≠ 0 := Nat.mul_ne_zero zero (Nat.pow_pos (by decide)).ne'
    have powers : zeros + exponent.toNat + (-(exponent + zeros)).toNat = (exponent + zeros).toNat + (-exponent).toNat := by
      omega
    have quotient : coefficient * 10 ^ zeros * 10 ^ exponent.toNat * unitsPerOne * 10 ^ (-(exponent + zeros)).toNat =
        coefficient * 10 ^ (exponent + zeros).toNat * unitsPerOne * 10 ^ (-exponent).toNat := by
      calc
        _ = coefficient * unitsPerOne * 10 ^ (zeros + exponent.toNat + (-(exponent + zeros)).toNat) := by ring
        _ = coefficient * unitsPerOne * 10 ^ ((exponent + zeros).toNat + (-exponent).toNat) := by rw [powers]
        _ = _ := by ring
    have ranks := nearestRank_congr (Nat.pow_pos (by decide : 0 < 10)) (Nat.pow_pos (by decide : 0 < 10)) quotient
    simp only [ofDecimal, zero, nonzero, length, Nat.pow_eq, ranks]

theorem ofDecimal_negative {coefficient : Nat} {exponent : Int} {rank : Fin finiteCount} (negative : Bool)
    (read : ofDecimal false coefficient exponent = .finite false rank) :
    ofDecimal negative coefficient exponent = .finite negative rank := by
  have ofRank_negative : ∀ {count : Nat}, ofRank false count = .finite false rank →
      ofRank negative count = .finite negative rank := by
    intro count read
    unfold ofRank at read ⊢
    split at read
    · next inside => simpa [inside] using read
    · cases read
  unfold ofDecimal at read ⊢
  dsimp only at read ⊢
  split at read
  next early =>
    rw [if_pos early]
    exact ofRank_negative read
  next late =>
    rw [if_neg late]
    split at read
    · cases read
    next within =>
      rw [if_neg within]
      exact ofRank_negative read

/-! The decimal that is chosen for a value -/

theorem units_lt {rank exponent : Nat} (bounded : rank < (exponent + 2) * blockSize) :
    units rank < 2 ^ (53 + exponent) := by
  rw [Nat.pow_add]
  by_cases low : rank < blockSize
  · rw [units_of_lt low]
    exact Nat.lt_of_lt_of_le (Nat.lt_trans low (by decide : blockSize < 2 ^ 53))
      (Nat.le_mul_of_pos_right _ (Nat.pow_pos (by decide)))
  · have block : rank / blockSize < exponent + 2 := (Nat.div_lt_iff_lt_mul (by decide)).mpr bounded
    have least : rank / blockSize - 1 ≤ exponent := by omega
    have factor : blockSize + rank % blockSize < 2 ^ 53 := by
      have rest := Nat.mod_lt rank (by decide : 0 < blockSize)
      have twice : 2 ^ 53 = blockSize + blockSize := by decide
      omega
    rw [units_of_le (Nat.not_lt.mp low)]
    exact Nat.mul_lt_mul_of_lt_of_le factor (Nat.pow_le_pow_right (by decide) least) (Nat.pow_pos (by decide))

theorem five_pow_mul_two_pow (exponent : Nat) : 5 ^ exponent * 2 ^ exponent = 10 ^ exponent :=
  (Nat.mul_pow 5 2 exponent).symm

theorem mul_five_pow_lt {size bits whole least digits : Nat} (bounded : size < 2 ^ bits) (split : bits = whole + least)
    (short : 2 ^ whole < 10 ^ digits) : size * 5 ^ least < 10 ^ (digits + least) :=
  calc
    size * 5 ^ least < 2 ^ bits * 5 ^ least := Nat.mul_lt_mul_of_pos_right bounded (Nat.pow_pos (by decide))
    _ = 2 ^ whole * 10 ^ least := by
      rw [← five_pow_mul_two_pow, split, Nat.pow_add, Nat.mul_assoc, Nat.mul_comm (2 ^ least)]
    _ < 10 ^ digits * 10 ^ least := Nat.mul_lt_mul_of_pos_right short (Nat.pow_pos (by decide))
    _ = 10 ^ (digits + least) := (Nat.pow_add 10 digits least).symm

/-- A positive value has its first digit within the powers of ten that are formed. -/
theorem decimalLength_exactly {rank : Fin finiteCount} (positive : 0 < rank.val) :
    750 < decimalLength (exactly rank).coefficient ∧ decimalLength (exactly rank).coefficient ≤ 309 + 1074 := by
  simp only [exactly, Nat.pow_eq]
  constructor
  · rw [← Nat.not_le, decimalLength_le_iff (by decide), Nat.not_lt]
    have least : 10 ^ 750 ≤ 5 ^ 1074 := by decide +kernel
    calc
      10 ^ 750 ≤ 5 ^ 1074 := least
      _ = 1 * 5 ^ 1074 := (Nat.one_mul _).symm
      _ ≤ units rank * 5 ^ 1074 := Nat.mul_le_mul_right _ (units_pos positive)
  · have most : 2 ^ 1024 < 10 ^ 309 := by decide +kernel
    exact (decimalLength_le_iff (by decide)).mpr (mul_five_pow_lt (units_lt rank.isLt) rfl most)

/-- The decimal number is read as the value. -/
def Decimal.ReadsAs (decimal : Decimal) (rank : Fin finiteCount) : Prop :=
  ofDecimal false decimal.coefficient decimal.exponent = .finite false rank

theorem ofDecimal_exactly {rank : Fin finiteCount} (positive : 0 < rank.val) :
    ofDecimal false (exactly rank).coefficient (exactly rank).exponent = .finite false rank := by
  obtain ⟨least, most⟩ := decimalLength_exactly positive
  have nonzero : (exactly rank).coefficient ≠ 0 := by
    intro zero
    rw [zero] at least
    exact absurd least (by decide)
  have exponent : (exactly rank).exponent = -1074 := rfl
  have rounded : nearestRank ((exactly rank).coefficient * 10 ^ (-1074 : Int).toNat * unitsPerOne)
      (10 ^ (-(-1074 : Int)).toNat) = rank := by
    refine (nearestRank_congr (Nat.pow_pos (by decide)) Nat.one_pos ?_).trans (nearestRank_units rank)
    have down : (-1074 : Int).toNat = 0 := rfl
    have up : (-(-1074 : Int)).toNat = 1074 := rfl
    rw [down, up, Nat.pow_zero, Nat.mul_one, Nat.mul_one, ← five_pow_mul_two_pow, ← Nat.mul_assoc]
    rfl
  have early : ¬(((decimalLength (exactly rank).coefficient : Int) + -1074) < -330) := by omega
  have late : ¬(310 < (decimalLength (exactly rank).coefficient : Int) + -1074) := by omega
  simp only [ofDecimal, exponent, nonzero, early, late, decide_false, Bool.or_false, Bool.false_eq_true, ite_false,
    Nat.pow_eq, rounded]
  simp only [ofRank, rank.isLt, dite_true, Fin.eta]

theorem ofDecimal_onGrid? {rank : Fin finiteCount} {exponent : Int} {coefficient : Nat}
    (found : onGrid? rank exponent = some coefficient) : ofDecimal false coefficient exponent = .finite false rank := by
  simp only [onGrid?] at found
  split at found
  next low =>
    split at found
    next up =>
      cases found
      exact of_decide_eq_true (Bool.and_eq_true_iff.mp up).1
    next =>
      cases found
      exact of_decide_eq_true low
  next =>
    split at found
    next high =>
      cases found
      exact of_decide_eq_true high
    next => cases found

/-- The fewest digits are read as the value, and so would be all digits. -/
theorem readsAs_shortest {rank : Fin finiteCount} (positive : 0 < rank.val) : (shortest rank).ReadsAs rank := by
  have all : (exactly rank).ReadsAs rank := ofDecimal_exactly positive
  have few : ∀ count : Nat, ∀ decimal, ((onGrid? rank (leadingExponent (units rank) - count)).map fun coefficient =>
      Decimal.mk coefficient (leadingExponent (units rank) - count)) = some decimal → decimal.ReadsAs rank := by
    intro count decimal candidate
    obtain ⟨coefficient, found, rfl⟩ := Option.map_eq_some_iff.mp candidate
    exact ofDecimal_onGrid? found
  unfold shortest
  dsimp only
  -- All digits are a product of large powers: named here, they are never formed.
  revert all few
  generalize exactly rank = whole
  generalize leadingExponent (units rank) = exponent
  intro all few
  cases search : (List.range 17).findSome? fun count : Nat =>
      (onGrid? rank (exponent - count)).map fun coefficient => (⟨coefficient, exponent - count⟩ : Decimal) with
  | none => exact all
  | some decimal =>
    obtain ⟨count, _, candidate⟩ := List.exists_of_findSome?_eq_some search
    exact few count decimal candidate

end FieldTree.Double
