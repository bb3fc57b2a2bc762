import VaultIndex.Text.Digits

/-!
# Timestamps

Moments of universal time, written with date and time of day. Years are counted from the first of
March, which puts the leap day at their end.
-/

namespace VaultIndex

/-- Nanoseconds since the beginning of 1970. -/
structure Timestamp where
  nanoseconds : Nat
deriving DecidableEq, Inhabited

namespace Timestamp

structure Date where
  year : Nat
  month : Nat
  day : Nat
deriving DecidableEq

/-- The days from the first of March of the year 0 to the beginning of 1970. -/
def epochDays : Nat := 719468

/-- The days of four hundred years. -/
def eraDays : Nat := 146097

/-- The date that lies so many days behind the first of March of the year 0. -/
def dateOfDays (days : Nat) : Date :=
  let era := days / eraDays
  let day := days % eraDays
  let year := (day - day / 1460 + day / 36524 - day / 146096) / 365
  let dayOfYear := day - (365 * year + year / 4 - year / 100)
  let month := (5 * dayOfYear + 2) / 153
  let dayOfMonth := dayOfYear - (153 * month + 2) / 5 + 1
  if month < 10 then ⟨year + 400 * era, month + 3, dayOfMonth⟩
  else ⟨year + 400 * era + 1, month - 9, dayOfMonth⟩

def nanosecondsPerSecond : Nat := 1000000000

/-- A fraction of a second, in as many groups of three digits as it takes. -/
def fractionChars (nanoseconds : Nat) : List Char :=
  if nanoseconds = 0 then []
  else if nanoseconds % 1000000 = 0 then '.' :: Digits.writePadded 10 3 (nanoseconds / 1000000)
  else if nanoseconds % 1000 = 0 then '.' :: Digits.writePadded 10 6 (nanoseconds / 1000)
  else '.' :: Digits.writePadded 10 9 nanoseconds

/-- The text of a moment. -/
def text (t : Timestamp) : String :=
  let two := Digits.writePadded 10 2
  let seconds := t.nanoseconds / nanosecondsPerSecond
  let date := dateOfDays (epochDays + seconds / 86400)
  let time := seconds % 86400
  String.ofList <|
    Digits.writePadded 10 4 date.year ++ '-' :: two date.month ++ '-' :: two date.day ++
      'T' :: two (time / 3600) ++ ':' :: two (time / 60 % 60) ++ ':' :: two (time % 60) ++
      fractionChars (t.nanoseconds % nanosecondsPerSecond) ++ ['Z']

end Timestamp

end VaultIndex
