import VaultIndex.Decimal.Text

/-!
# Durations

A duration is written in the largest unit of which it fills at least one, with all its digits.
-/

namespace VaultIndex

structure Duration where
  nanoseconds : Nat
deriving DecidableEq, Inhabited

namespace Duration

def ofSeconds (n : Nat) : Duration := ⟨n * 1000000000⟩

/-- A unit, as a power of ten of nanoseconds. -/
structure Unit where
  power : Nat
  mark : String

/-- The nanoseconds of a unit. -/
def Unit.size (u : Unit) : Nat := Nat.pow 10 u.power

/-- The units in which durations are written, the largest first. -/
def units : List Unit := [⟨9, "s"⟩, ⟨6, "ms"⟩, ⟨3, "µs"⟩]

/-- The unit of a duration; without a larger one, nanoseconds. -/
def unit (d : Duration) : Unit :=
  (units.find? fun u => u.size ≤ d.nanoseconds).getD ⟨0, "ns"⟩

/-- Characters without zeros at the end. -/
def trimZeros (cs : List Char) : List Char := (cs.reverse.dropWhile (· = '0')).reverse

/-- The text of a duration. -/
def text (d : Duration) : String :=
  let u := d.unit
  let whole := Digits.write 10 (d.nanoseconds / u.size)
  let fraction := trimZeros (Digits.writePadded 10 u.power (d.nanoseconds % u.size))
  let digits := if d.nanoseconds % u.size = 0 then whole else whole ++ '.' :: fraction
  String.ofList digits ++ u.mark

end Duration

end VaultIndex
