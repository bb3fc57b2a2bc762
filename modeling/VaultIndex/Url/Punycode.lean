/-!
# Punycode

Labels of a domain name in ASCII. The characters beyond ASCII follow the others as the distances
between their insertions, in digits whose weights adapt to the distances written so far.
-/

namespace VaultIndex.Url.Punycode

/-- A digit of base 36; the letters come first. -/
def digit (d : Nat) : Char := if d < 26 then Char.ofNat (0x61 + d) else Char.ofNat (0x30 + d - 26)

/-- The least value of the digit at a place that is not the last one. -/
def threshold (place bias : Nat) : Nat := min 26 (max 1 (place - bias))

/-- A distance in digits from a place on, the least significant first. -/
def writeFrom (bias place n : Nat) : List Char :=
  let t := threshold place bias
  if n < t then [digit n]
  else digit (t + (n - t) % (36 - t)) :: writeFrom bias (place + 36) ((n - t) / (36 - t))
termination_by n
decreasing_by
  have : 1 ≤ threshold place bias := by unfold threshold; omega
  have := Nat.div_le_self (n - threshold place bias) (36 - threshold place bias)
  omega

/-- How often a distance is divided before the bias is taken from it, and what is left. -/
def damped (n rounds : Nat) : Nat × Nat :=
  if n ≤ 455 then (n, rounds) else damped (n / 35) (rounds + 1)
termination_by n

/-- The bias behind a distance, with so many characters written. -/
def adapted (distance written : Nat) (isFirst : Bool) : Nat :=
  let d := if isFirst then distance / 700 else distance / 2
  let (left, rounds) := damped (d + d / written) 0
  36 * rounds + 36 * left / (left + 38)

structure State where
  digits : List Char := []
  distance : Nat := 0
  bias : Nat := 72
  written : Nat

/-- Passes one character of the label while those of one code point are being inserted. -/
def pass (plain codePoint : Nat) (s : State) (c : Char) : State :=
  if c.toNat < codePoint then { s with distance := s.distance + 1 }
  else if c.toNat = codePoint then
    { digits := s.digits ++ writeFrom s.bias 36 s.distance
      distance := 0
      bias := adapted s.distance (s.written + 1) (s.written = plain)
      written := s.written + 1 }
  else s

/-- Inserts the characters of each of the ascending code points; the last one to be inserted before
was `previous`. -/
def insertAll (label : List Char) (plain : Nat) : Nat → List Nat → State → State
  | _, [], s => s
  | previous, codePoint :: rest, s =>
    let skipped := (codePoint - previous) * (s.written + 1)
    let s := label.foldl (pass plain codePoint) { s with distance := s.distance + skipped }
    insertAll label plain (codePoint + 1) rest { s with distance := s.distance + 1 }

/-- A label that is not all ASCII, without its mark. -/
def encode (label : List Char) : List Char :=
  let ascii := label.filter (·.toNat < 0x80)
  let others := ((label.map Char.toNat).filter (0x80 ≤ ·)).mergeSort.eraseDups
  let s := insertAll label ascii.length 0x80 others { written := ascii.length }
  if ascii.isEmpty then s.digits else ascii ++ '-' :: s.digits

end VaultIndex.Url.Punycode
