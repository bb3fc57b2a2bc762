import VaultIndex.Double.Bits
import VaultIndex.Text.Digits

/-!
# Shortest digits of a double

The fewest decimal digits that lie closer to a double than to any other, and of those the ones
nearest to it.
-/

namespace VaultIndex.Double

/-- A decimal number `digits · 10 ^ exponent`. -/
structure Scaled where
  digits : Nat
  exponent : Int
deriving DecidableEq

/-- The reals that round to a double, as quotients over one denominator. -/
structure Interval where
  low : Nat
  value : Nat
  high : Nat
  den : Nat
  /-- Whether the ends belong to the interval. -/
  closed : Bool

/-- Half way to the neighbours on either side; below a power of two the neighbour is twice as
close. -/
def interval (m : Magnitude) : Interval :=
  let scale := Nat.pow 2 m.exponent.toNat
  let den := 4 * Nat.pow 2 (-m.exponent).toNat
  let below := if m.mantissa = leadingBit ∧ minExponent < m.exponent then 1 else 2
  { low := (4 * m.mantissa - below) * scale
    value := 4 * m.mantissa * scale
    high := (4 * m.mantissa + 2) * scale
    den
    closed := m.mantissa % 2 = 0 }

/-- Whether `n / d`, in units of the interval's denominator, lies in the interval. -/
def Interval.holds (i : Interval) (n d : Nat) : Bool :=
  if i.closed then i.low * d ≤ n * i.den && n * i.den ≤ i.high * d
  else i.low * d < n * i.den && n * i.den < i.high * d

/-- The exponent of the first decimal digit of a positive quotient. -/
def firstDigit (num den : Nat) : Int :=
  if den ≤ num then (Digits.count (num / den) : Int) - 1
  else -(Digits.count ((den + num - 1) / num - 1) : Int)

/-- Nine and a bit may round up to ten, which is one digit a place higher. -/
def Scaled.carried (s : Scaled) : Scaled :=
  if s.digits % 10 = 0 then ⟨s.digits / 10, s.exponent + 1⟩ else s

/-- The point of the grid of multiples of `10 ^ exponent` that lies in the interval, the nearer of
two. -/
def onGrid? (i : Interval) (exponent : Int) : Option Scaled :=
  let up := Nat.pow 10 exponent.toNat
  let down := Nat.pow 10 (-exponent).toNat
  let floor := i.value * down / (i.den * up)
  let holds := fun n : Nat => i.holds (n * up) down
  let rest := i.value * down - floor * (i.den * up)
  let chosen? :=
    match holds floor, holds (floor + 1) with
    | true, true =>
      if 2 * rest < i.den * up ∨ (2 * rest = i.den * up ∧ floor % 2 = 0) then some floor
      else some (floor + 1)
    | true, false => some floor
    | false, true => some (floor + 1)
    | false, false => none
  chosen?.map fun n => Scaled.carried ⟨n, exponent⟩

/-- The shortest digits of a positive magnitude; seventeen always suffice. -/
def shortest (m : Magnitude) : Scaled :=
  let i := interval m
  let first := firstDigit i.value i.den
  let grids := (List.range 17).map fun k : Nat => first - Int.ofNat k
  (grids.findSome? (onGrid? i)).getD ⟨0, 0⟩

end VaultIndex.Double
