import FieldTree.Yaml.Fault
/-! Dates, with or without a time, and whether there is such a day and such a time. -/

namespace FieldTree.Yaml

/-- The offset of a zone from universal time, in minutes either way. -/
structure ClockTime where
  hour : Nat
  minute : Nat
  second : Nat
  offset : Nat

structure Timestamp where
  year : Nat
  month : Nat
  day : Nat
  time : Option ClockTime

namespace Timestamp

/-- The number that between `least` and `most` digits write, and what follows them. -/
def number? (least most : Nat) (chars : List Char) : Option (Nat × List Char) :=
  let digits := chars.takeWhile Char.isDigit
  if least ≤ digits.length && digits.length ≤ most then
    some (digits.foldl (fun value c => 10 * value + (c.toNat - '0'.toNat)) 0, chars.drop digits.length)
  else none

def after? (c : Char) : List Char → Option (List Char)
  | d :: rest => if c = d then some rest else none
  | [] => none

def isBlank (c : Char) : Bool := c = ' ' || c = '\t'

def skipBlanks (chars : List Char) : List Char := chars.dropWhile isBlank

/-- A zone after a time: none, `Z`, or hours with a sign, with or without minutes. -/
def offset? (chars : List Char) : Option Nat :=
  match skipBlanks chars with
  | [] => if chars.isEmpty then some 0 else none
  | ['Z'] => some 0
  | sign :: rest => do
    if sign ≠ '+' && sign ≠ '-' then none
    let (hours, rest) ← number? 1 2 rest
    if rest.isEmpty then return 60 * hours
    let (minutes, rest) ← number? 2 2 (← after? ':' rest)
    if rest.isEmpty then return 60 * hours + minutes else none

def time? (chars : List Char) : Option ClockTime := do
  let (hour, rest) ← number? 1 2 chars
  let (minute, rest) ← number? 2 2 (← after? ':' rest)
  let (second, rest) ← number? 2 2 (← after? ':' rest)
  let rest := match rest with
    | '.' :: fraction => fraction.dropWhile Char.isDigit
    | rest => rest
  return ⟨hour, minute, second, ← offset? rest⟩

/-- What sets a date and a time apart: the letter `T`, or blanks. -/
def timeAfter? : List Char → Option ClockTime
  | 'T' :: rest => time? rest
  | 't' :: rest => time? rest
  | c :: rest => if isBlank c then time? (skipBlanks rest) else none
  | [] => none

def ofChars? (chars : List Char) : Option Timestamp := do
  let (year, rest) ← number? 4 4 chars
  let (month, rest) ← number? 1 2 (← after? '-' rest)
  let (day, rest) ← number? 1 2 (← after? '-' rest)
  if rest.isEmpty then return ⟨year, month, day, none⟩
  return ⟨year, month, day, some (← timeAfter? rest)⟩

def isLeapYear (year : Nat) : Bool := year % 4 == 0 && (year % 100 != 0 || year % 400 == 0)

def daysOf (year month : Nat) : Nat :=
  if month = 2 then (if isLeapYear year then 29 else 28)
  else if [4, 6, 9, 11].contains month then 30
  else 31

def checkDate (stamp : Timestamp) : Except ScalarFault Unit :=
  if stamp.year = 0 then .error (.year stamp.year)
  else if stamp.month = 0 || 12 < stamp.month then .error .month
  else if stamp.day = 0 || daysOf stamp.year stamp.month < stamp.day then .error .day
  else .ok ()

def ClockTime.check (time : ClockTime) : Except ScalarFault Unit :=
  if 23 < time.hour then .error .hour
  else if 59 < time.minute then .error .minute
  else if 59 < time.second then .error .second
  else .ok ()

/-- The zone is looked at first, and the time last. -/
def check (stamp : Timestamp) : Except ScalarFault Unit :=
  match stamp.time with
  | none => stamp.checkDate
  | some time => do
    if 24 * 60 ≤ time.offset then throw .zone
    stamp.checkDate
    ClockTime.check time

end Timestamp
end FieldTree.Yaml
