import FieldTree.Text.Quoted
/-! Why a text has no value. -/

namespace FieldTree.Yaml

/-- A scalar that looks like a value of its kind, or is said to be one, and is none. -/
inductive ScalarFault
  | noDigits
  | noInteger (base : Nat) (text : String)
  | integerTooLong (digits : Nat)
  | noNumber (text : String)
  | noBool (text : String)
  | noTimestamp (text : String)
  | year (value : Nat)
  | month
  | day
  | hour
  | minute
  | second
  | zone
  deriving DecidableEq

def ScalarFault.message : ScalarFault → String
  | .noDigits => "a number needs digits"
  | .noInteger base text => "no integer in base " ++ toString base ++ ": " ++ Text.quoted text
  | .integerTooLong digits => "an integer of " ++ toString digits ++ " digits is too long"
  | .noNumber text => "no number: " ++ Text.quoted text
  | .noBool text => "neither true nor false: " ++ Text.quoted text
  | .noTimestamp text => "no timestamp: " ++ Text.quoted text
  | .year value => "year " ++ toString value ++ " is out of range"
  | .month => "month must be in 1..12"
  | .day => "day is out of range for month"
  | .hour => "hour must be in 0..23"
  | .minute => "minute must be in 0..59"
  | .second => "second must be in 0..59"
  | .zone => "the offset of a zone must be less than 24 hours"

inductive Fault
  | malformed
  | scalar (cause : ScalarFault)
  /-- An escaped code beyond the last character, or beyond 31 bits. -/
  | noCharacter
  | codeTooLarge
  deriving DecidableEq

def Fault.message : Fault → String
  | .malformed => "malformed"
  | .scalar cause => cause.message
  | .noCharacter => "an escaped code is no character"
  | .codeTooLarge => "an escaped code is too large"

/-- Whether a fault is told as a wrong value. The others are of kinds of their own. -/
def Fault.isValueError : Fault → Bool
  | .scalar .noDigits => false
  | .scalar (.noBool _) => false
  | .scalar (.noTimestamp _) => false
  | .codeTooLarge => false
  | _ => true

/-- Text in which something is missing is malformed. -/
def orMalformed {α : Type} : Option α → Except Fault α
  | some value => .ok value
  | none => .error .malformed

end FieldTree.Yaml
