import FieldTree.Number.Shortest
/-! Numbers of documents: an integer and a number of double precision are told apart, also when they
are equal as numbers. -/

namespace FieldTree

inductive Number
  | int (value : Int)
  | float (value : Double)
  deriving DecidableEq

namespace Number

def zero : Number := .int 0

def text : Number → String
  | .int value => toString value
  | .float value => value.text

def sameNumber : Number → Number → Bool
  | .int x, .int y => x == y
  | .float x, .float y => x.sameNumber y
  | .int x, .float y => y.toInt? == some x
  | .float x, .int y => x.toInt? == some y

def isZero : Number → Bool
  | .int value => value == 0
  | .float value => value.isZero

/-- The integer that the number is, if it is one. -/
def toInt? : Number → Option Int
  | .int value => some value
  | .float value => value.toInt?

end Number
end FieldTree
