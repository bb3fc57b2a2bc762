import VaultIndex.Decimal.Basic
import VaultIndex.Text.Digits

/-!
# Decimal texts

How decimals are written and read. Numbers are written positionally unless that would take more
zeros than `Decimal.leadingZeros` in front or `Decimal.trailingZeros` behind the digits.
-/

namespace VaultIndex.Decimal

/-- The most zeros written between the point and the first digit. -/
def leadingZeros : Nat := 5

/-- The most zeros written behind the last digit. -/
def trailingZeros : Nat := 15

/-! ### Writing -/

/-- The digits of an unscaled part with a point so many places from the right. -/
def pointed (digits : List Char) (places : Nat) : List Char :=
  if places = 0 then digits
  else if places < digits.length then
    digits.take (digits.length - places) ++ '.' :: digits.drop (digits.length - places)
  else '0' :: '.' :: (List.replicate (places - digits.length) '0' ++ digits)

/-- The first digit, a point if more digits follow, and those digits. -/
def leading : List Char → List Char
  | d :: e :: rest => d :: '.' :: e :: rest
  | digits => digits

/-- The characters of a positive unscaled part at a scale. -/
def magnitude (n : Nat) (scale : Int) : List Char :=
  let digits := Digits.write 10 n
  if digits.length + leadingZeros < scale then
    leading digits ++ 'E' :: '-' :: Digits.write 10 (scale - digits.length + 1).toNat
  else if trailingZeros < -scale then
    digits ++ 'e' :: '+' :: Digits.write 10 (-scale).toNat
  else pointed (digits ++ List.replicate (-scale).toNat '0') scale.toNat

/-- The text of a decimal; zero is `0` whatever its scale. -/
def text (d : Decimal) : String :=
  String.ofList <|
    if d.unscaled = 0 then ['0']
    else if d.unscaled < 0 then '-' :: magnitude d.unscaled.natAbs d.scale
    else magnitude d.unscaled.natAbs d.scale

/-! ### Reading -/

/-- Splits a sign off. -/
def signed : List Char → Bool × List Char
  | '-' :: rest => (true, rest)
  | '+' :: rest => (false, rest)
  | cs => (false, cs)

/-- Reads an optionally signed number whose first character is a digit; underscores may follow. -/
def readInteger? (cs : List Char) : Option Int := do
  let (negative, digits) := signed cs
  let first ← digits.head?
  guard first.isDigit
  let n ← Digits.read? 10 (digits.filter (· ≠ '_'))
  return if negative then -n else n

/-- Reads an exponent: an optionally signed run of digits without underscores. -/
def readExponent? (cs : List Char) : Option Int :=
  if cs.contains '_' then none else readInteger? cs

/-- Removes the first point, and counts what stands behind it, underscores aside. -/
def unpointed (cs : List Char) : List Char × Nat :=
  let whole := cs.takeWhile (· ≠ '.')
  match cs.dropWhile (· ≠ '.') with
  | [] => (whole, 0)
  | _ :: fraction => (whole ++ fraction, (fraction.filter (· ≠ '_')).length)

/-- The scales that a decimal can have. -/
def scaleInRange (scale : Int) : Bool :=
  Int64.minValue.toInt ≤ scale && scale ≤ Int64.maxValue.toInt

/-- Reads digits with an optional point and an optional exponent behind `e` or `E`. -/
def ofText? (s : String) : Option Decimal := do
  let cs := s.toList
  let isMark := fun c : Char => c = 'e' ∨ c = 'E'
  let exponent ← match cs.dropWhile fun c => ¬isMark c with
    | [] => some 0
    | _ :: rest => readExponent? rest
  let (digits, places) := unpointed (cs.takeWhile fun c => ¬isMark c)
  let unscaled ← readInteger? digits
  let scale := places - exponent
  guard (scaleInRange scale)
  return ⟨unscaled, scale⟩

end VaultIndex.Decimal
