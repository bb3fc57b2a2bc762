import VaultIndex.Decimal.Text
import VaultIndex.Double.Shortest

/-!
# Doubles and decimals

Texts of doubles, the double nearest to a decimal, and the decimal that a double is exactly.
-/

namespace VaultIndex.Double

/-- The decimal with the shortest digits that read back as a finite double. -/
def shortestDecimal (x : Float) : Decimal :=
  let m := magnitude x
  let s := if m.mantissa = 0 then ⟨0, 0⟩ else shortest m
  let n : Int := s.digits * Nat.pow 10 s.exponent.toNat
  ⟨if isNegative x then -n else n, (-s.exponent).toNat⟩

/-- The text of a double: its shortest digits, positionally, without an exponent. -/
def text (x : Float) : String :=
  if x.isNaN then "NaN"
  else
    let sign := if isNegative x then "-" else ""
    if x.isInf then sign ++ "inf"
    else
      let d := shortestDecimal x
      sign ++ String.ofList (Decimal.pointed (Digits.write 10 d.unscaled.natAbs) d.scale.toNat)

/-- Decimals of at least this many whole digits are beyond the doubles. -/
def maxWholeDigits : Int := 400

/-- The least whole number that is beyond the doubles whatever the rounding. -/
def overflowing : Nat := Nat.pow 2 1024

/-- The double nearest to a decimal. -/
def ofDecimal (d : Decimal) : Float :=
  let n := d.unscaled.natAbs
  let negative := decide (d.unscaled < 0)
  let whole := (Digits.count n : Int) - d.scale
  if n = 0 ∨ whole < -maxWholeDigits then ofRatio negative 0 1
  else if maxWholeDigits < whole then ofRatio negative overflowing 1
  else ofRatio negative (n * Nat.pow 10 (-d.scale).toNat) (Nat.pow 10 d.scale.toNat)

/-- The decimal that a finite double is. It has no more places than it needs, save that a mantissa
short of 53 bits has all the places of its exponent. -/
def toDecimal (x : Float) : Decimal :=
  let m := magnitude x
  let below := (-m.exponent).toNat
  let twos := (List.range below).find? (fun k => m.mantissa / Nat.pow 2 k % 2 = 1)
  let shift :=
    if m.mantissa = 0 then below else if m.mantissa < leadingBit then 0 else twos.getD below
  let places := below - shift
  let n : Int := m.mantissa / Nat.pow 2 shift * Nat.pow 2 m.exponent.toNat * Nat.pow 5 places
  ⟨if isNegative x then -n else n, places⟩

/-- Reads the text of a double: a decimal, or one of the names of what is no number. -/
def ofText? (s : String) : Option Float :=
  match Decimal.signed s.toList with
  | (negative, ['i', 'n', 'f']) => some (ofRatio negative overflowing 1)
  | (_, ['N', 'a', 'N']) => some (0.0 / 0.0)
  | (negative, digits) => do
    let d ← Decimal.ofText? (String.ofList digits)
    let x := ofDecimal d
    return if negative then -x else x

end VaultIndex.Double
