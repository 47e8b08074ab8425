/-! Numbers of double precision. Finite values are counted upwards from zero, so that rounding up is
adding one to the count, also where the exponent changes. -/

namespace FieldTree

/-- How many finite values there are that are not negative. -/
def Double.finiteCount : Nat := 2047 * Nat.pow 2 52

inductive Double
  | nan
  | infinite (negative : Bool)
  /-- The value with `rank` values from zero up to it, itself not counted. -/
  | finite (negative : Bool) (rank : Fin Double.finiteCount)
  deriving DecidableEq

namespace Double

/-- Ranks in which all values are equally far apart. -/
def blockSize : Nat := Nat.pow 2 52

/-- The exponent of two of the distance between a value and the next, counted from the least distance. -/
def quantum (rank : Nat) : Nat := rank / blockSize - 1

def significand (rank : Nat) : Nat :=
  if rank < blockSize then rank else blockSize + rank % blockSize

/-- The size of a finite value as a multiple of the least positive one. -/
def units (rank : Nat) : Nat := significand rank * Nat.pow 2 (quantum rank)

/-- One, as a multiple of the least positive value. -/
def unitsPerOne : Nat := Nat.pow 2 1074

/-- The rank of the value nearest to `num / den` least positive values; of two equally near, the one
with an even significand. Ranks from `finiteCount` on stand for infinity. -/
def nearestRank (num den : Nat) : Nat :=
  let scale := (num / den).log2 - 52
  let step := den * Nat.pow 2 scale
  let low := num / step
  let twice := 2 * (num % step)
  let up := step < twice || (step = twice && low % 2 = 1)
  scale * blockSize + low + if up then 1 else 0

def ofRank (negative : Bool) (rank : Nat) : Double :=
  if h : rank < finiteCount then .finite negative ⟨rank, h⟩ else .infinite negative

def isZero : Double → Bool
  | .finite _ rank => rank.val == 0
  | _ => false

/-- How many digits a number has. -/
def decimalLength (n : Nat) : Nat := (Nat.toDigits 10 n).length

/-- A decimal that is surely too large for a finite value, or too small for one other than zero, is
settled by its length: its powers of ten are never formed. -/
def ofDecimal (negative : Bool) (coefficient : Nat) (exponent : Int) : Double :=
  let length := decimalLength coefficient + exponent
  if coefficient = 0 || length < -330 then ofRank negative 0
  else if 310 < length then .infinite negative
  else ofRank negative
    (nearestRank (coefficient * Nat.pow 10 exponent.toNat * unitsPerOne) (Nat.pow 10 (-exponent).toNat))

/-- The integer that the value is, if it is one. -/
def toInt? : Double → Option Int
  | .finite negative rank =>
    let size := units rank
    if size % unitsPerOne = 0 then
      let whole : Int := size / unitsPerOne
      some (if negative then -whole else whole)
    else none
  | _ => none

/-- Equality as numbers: both zeros are equal, and what is no number equals nothing. -/
def sameNumber (x y : Double) : Bool :=
  x != .nan && (x == y || (x.isZero && y.isZero))

end Double
end FieldTree
