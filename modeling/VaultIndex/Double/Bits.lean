/-!
# Doubles as scaled whole numbers

A finite double is a whole number of at most 53 bits times a power of two. `Double.ofRatio` is the
double nearest to a quotient of whole numbers.
-/

namespace VaultIndex.Double

/-- The smallest exponent of a double's last bit. -/
def minExponent : Int := -1074

/-- The magnitude of a finite double: `mantissa · 2 ^ exponent`. -/
structure Magnitude where
  mantissa : Nat
  exponent : Int
deriving DecidableEq

/-- The bit in front of the stored bits of a mantissa. -/
def leadingBit : Nat := Nat.pow 2 52

/-- Whether the sign bit is set. -/
def isNegative (x : Float) : Bool := x.toBits >>> 63 == 1

/-- The magnitude of a finite double. -/
def magnitude (x : Float) : Magnitude :=
  let fraction : Nat := x.toBits.toNat % leadingBit
  let biased : Nat := x.toBits.toNat / leadingBit % 2048
  if biased = 0 then ⟨fraction, minExponent⟩ else ⟨leadingBit + fraction, biased - 1075⟩

/-- A quotient rounded to the nearest whole number, a tie to the even one. -/
def roundDiv (num den : Nat) : Nat :=
  let q := num / den
  let r := num % den
  if 2 * r < den then q
  else if den < 2 * r then q + 1
  else if q % 2 = 0 then q else q + 1

/-- The quotient `num / den` counted in units of `2 ^ exponent`, as a quotient of whole numbers. -/
def inUnits (num den : Nat) (exponent : Int) : Nat × Nat :=
  (num * Nat.pow 2 (-exponent).toNat, den * Nat.pow 2 exponent.toNat)

/-- The exponent of the last bit of the double nearest to a positive quotient, before rounding. -/
def lastBit (num den : Nat) : Int :=
  let guess : Int := num.log2 - den.log2 - 52
  let (n, d) := inUnits num den guess
  max minExponent (if n / d < leadingBit then guess - 1 else guess)

/-- The double with a sign and a magnitude; magnitudes beyond the greatest double are infinite. A
mantissa short of 53 bits has the smallest exponent, and one of 54 bits carries into the
exponent. -/
def assemble (negative : Bool) (m : Magnitude) : Float :=
  let bits := (m.exponent - minExponent).toNat * leadingBit + m.mantissa
  let bounded := min bits (2047 * leadingBit)
  Float.ofBits (UInt64.ofNat (if negative then Nat.pow 2 63 + bounded else bounded))

/-- The double nearest to a quotient, a tie to the even mantissa. -/
def ofRatio (negative : Bool) (num den : Nat) : Float :=
  if num = 0 then assemble negative ⟨0, minExponent⟩
  else
    let exponent := lastBit num den
    let (n, d) := inUnits num den exponent
    assemble negative ⟨roundDiv n d, exponent⟩

end VaultIndex.Double
