import FieldTree.Number.Double
/-! The text of a number of double precision: the fewest digits that read back, and of those the
nearest to the value. -/

namespace FieldTree.Double

structure Decimal where
  coefficient : Nat
  exponent : Int

/-- The exponent of ten of the first digit of a value other than zero. -/
def leadingExponent (size : Nat) : Int :=
  (decimalLength (size * Nat.pow 10 330 / unitsPerOne) : Int) - 331

/-- The value's two neighbours among the multiples of a power of ten, if they read back; of two that do,
the nearer. -/
def onGrid? (rank : Fin finiteCount) (exponent : Int) : Option Nat :=
  let num := units rank * Nat.pow 10 (-exponent).toNat
  let den := unitsPerOne * Nat.pow 10 exponent.toNat
  let low := num / den
  let twice := 2 * (num % den)
  let readsBack (n : Nat) : Bool := ofDecimal false n exponent = .finite false rank
  if readsBack low then
    if readsBack (low + 1) && (den < twice || (den = twice && low % 2 = 1)) then some (low + 1) else some low
  else if readsBack (low + 1) then some (low + 1)
  else none

/-- All digits of the value. -/
def exactly (rank : Fin finiteCount) : Decimal := ⟨units rank * Nat.pow 5 1074, -1074⟩

/-- Seventeen digits always suffice; the search keeps to them and would give all digits otherwise. -/
def shortest (rank : Fin finiteCount) : Decimal :=
  let leading := leadingExponent (units rank)
  let candidate (count : Nat) : Option Decimal :=
    (onGrid? rank (leading - count)).map fun coefficient => ⟨coefficient, leading - count⟩
  ((List.range 17).findSome? candidate).getD (exactly rank)

/-- The exponent of the first digit and the digits up to the last that is not zero. -/
def Decimal.leadingDigits (d : Decimal) : Int × List Char :=
  let digits := Nat.toDigits 10 d.coefficient
  (d.exponent + digits.length - 1, (digits.reverse.dropWhile (· = '0')).reverse)

/-- At least two digits, after a sign. -/
def exponentText (exponent : Int) : List Char :=
  let digits := Nat.toDigits 10 exponent.natAbs
  (if exponent < 0 then '-' else '+') :: List.replicate (2 - digits.length) '0' ++ digits

def zeros (count : Nat) : List Char := List.replicate count '0'

/-- The point is placed among the digits when the first stands at most four places behind it or at most
sixteen before it; then at least one decimal is written. -/
def layout (exponent : Int) (digits : List Char) : List Char :=
  if exponent < -4 || 16 ≤ exponent then
    match digits with
    | [] => []
    | first :: [] => first :: 'e' :: exponentText exponent
    | first :: rest => first :: '.' :: rest ++ 'e' :: exponentText exponent
  else if exponent < 0 then '0' :: '.' :: zeros (-exponent - 1).toNat ++ digits
  else
    let whole := exponent.toNat + 1
    if digits.length ≤ whole then digits ++ zeros (whole - digits.length) ++ ['.', '0']
    else digits.take whole ++ '.' :: digits.drop whole

def magnitudeChars (rank : Fin finiteCount) : List Char :=
  if rank.val = 0 then ['0', '.', '0']
  else
    let (exponent, digits) := (shortest rank).leadingDigits
    layout exponent digits

def text : Double → String
  | .nan => "nan"
  | .infinite negative => if negative then "-inf" else "inf"
  | .finite negative rank =>
    String.ofList (if negative then '-' :: magnitudeChars rank else magnitudeChars rank)

end FieldTree.Double
