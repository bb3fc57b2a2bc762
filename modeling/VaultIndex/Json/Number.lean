import VaultIndex.Double.Text
import VaultIndex.Json.Read

/-!
# Numbers as doubles

A JSON number with a fraction or an exponent, or one too long for a machine word, stands for a
double. Of its digits those count that fit a machine word; the double is the word scaled by a power
of ten, in the arithmetic of doubles.
-/

namespace VaultIndex.Json

/-- A machine word times a power of ten. -/
structure Significand where
  word : Nat
  exponent : Int
deriving DecidableEq

/-- The parts of a written number. -/
structure NumberParts where
  negative : Bool
  whole : List Char
  fraction : List Char
  exponent : Int

/-- Takes a written number apart. -/
def numberParts (written : List Char) : NumberParts :=
  let (negative, digits) := Decimal.signed written
  let whole := digits.takeWhile Char.isDigit
  let rest := digits.dropWhile Char.isDigit
  let fraction := match rest with
    | '.' :: fraction => fraction.takeWhile Char.isDigit
    | _ => []
  let exponent := match rest.dropWhile fun c => c ≠ 'e' ∧ c ≠ 'E' with
    | _ :: exponent => (Decimal.readInteger? exponent).getD 0
    | [] => 0
  ⟨negative, whole, fraction, exponent⟩

/-- The value of a decimal digit. -/
def digitValue (c : Char) : Nat := c.toNat - '0'.toNat

/-- Takes digits in front of the point while they fit; the others only shift the exponent. -/
def takeWhole : Nat → List Char → Significand
  | word, [] => ⟨word, 0⟩
  | word, c :: rest =>
    let next := 10 * word + digitValue c
    if next < UInt64.size then takeWhole next rest else ⟨word, rest.length + 1⟩

/-- Takes digits behind the point while they fit; the others are dropped. -/
def takeFraction : Significand → List Char → Significand
  | s, [] => s
  | s, c :: rest =>
    let next := 10 * s.word + digitValue c
    if next < UInt64.size then takeFraction ⟨next, s.exponent - 1⟩ rest else s

/-- The greatest power of ten among the doubles. -/
def maxPower : Nat := 308

/-- A power of ten as a double. -/
def power (n : Nat) : Float := Double.ofRatio false (Nat.pow 10 n) 1

/-- Divides a double by a power of ten, in steps of the greatest one until nothing is left. -/
def scaledDown (x : Float) (places : Nat) : Float :=
  if places ≤ maxPower then x / power places
  else if x == 0 then x
  else scaledDown (x / power maxPower) (places - maxPower)
termination_by places
decreasing_by simp [maxPower] at *; omega

/-- The double of a significand; `none` where it is beyond the doubles. -/
def Significand.double? (s : Significand) : Option Float :=
  let x := Double.ofRatio false s.word 1
  if s.exponent ≤ 0 then some (scaledDown x (-s.exponent).toNat)
  else if s.exponent ≤ maxPower then
    let y := x * power s.exponent.toNat
    if y.isInf then none else some y
  else if s.word = 0 then some x else none

/-- The double that a written number stands for. -/
def double? (written : List Char) : Option Float := do
  let parts := numberParts written
  let s := takeFraction (takeWhole 0 parts.whole) parts.fraction
  let x ← Significand.double? { s with exponent := s.exponent + parts.exponent }
  return if parts.negative then -x else x

/-- Whether a written number is a whole number without an exponent. -/
def isInteger (written : List Char) : Bool := Digits.areDecimal (Decimal.signed written).2

/-- The whole number of a written one, where it fits a machine word; a zero with a sign does not. -/
def integer? (written : List Char) : Option Int := do
  guard (isInteger written)
  let n ← Decimal.readInteger? written
  guard (Int64.minValue.toInt ≤ n ∧ n < UInt64.size ∧ ¬(n = 0 ∧ written.head? = some '-'))
  return n

/-- The decimal of a number: a whole number as it is written, another one as its double. -/
def decimalOfNumber? (written : List Char) : Option Decimal :=
  match integer? written with
  | some n => some (Decimal.ofInt n)
  | none => (double? written).map Double.toDecimal

/-- Reads a decimal from its text or from a number. -/
def decimal : Reader Decimal
  | number written => orMalformed (decimalOfNumber? written)
  | v => textual Decimal.ofText? v

end VaultIndex.Json
