/-!
# Digits

Natural numbers in positional notation. What is written in a base from two to sixteen reads back
(`Digits.read?_write`).
-/

namespace VaultIndex.Digits

/-- The value of a character as a digit of a base; letters of either case follow the nine. -/
def digit? (base : Nat) (c : Char) : Option Nat :=
  let value? : Option Nat :=
    if '0' ≤ c ∧ c ≤ '9' then some (c.toNat - '0'.toNat)
    else if 'a' ≤ c ∧ c ≤ 'z' then some (c.toNat - 'a'.toNat + 10)
    else if 'A' ≤ c ∧ c ≤ 'Z' then some (c.toNat - 'A'.toNat + 10)
    else none
  value?.filter (· < base)

/-- Reads further digits behind a number, the most significant first. -/
def readFrom? (base : Nat) : Nat → List Char → Option Nat
  | n, [] => some n
  | n, c :: rest => (digit? base c).bind fun d => readFrom? base (base * n + d) rest

/-- Reads digits, the most significant first; no digits at all make zero. -/
def read? (base : Nat) (cs : List Char) : Option Nat := readFrom? base 0 cs

/-- Writes a number without leading zeros; zero is one digit. -/
def write (base n : Nat) : List Char := Nat.toDigits base n

/-- Writes a number with zeros in front up to a width. -/
def writePadded (base width n : Nat) : List Char := (write base n).leftpad width '0'

/-- The number of decimal digits of a number; zero has one. -/
def count (n : Nat) : Nat := (write 10 n).length

/-- Whether every character is a decimal digit. -/
def areDecimal (cs : List Char) : Bool := cs.all Char.isDigit

/-! ### Reading what was written -/

theorem digit?_digitChar {base d : Nat} (hd : d < base) (h : d < 16) :
    digit? base d.digitChar = some d := by
  have : ∀ d < 16, ∀ b, d < b → digit? b d.digitChar = some d := by
    intro d hd b hb
    rcases d with _|_|_|_|_|_|_|_|_|_|_|_|_|_|_|_|d <;>
      first | omega | simp [digit?, Nat.digitChar, Option.filter, hb]
  exact this d h base hd

theorem readFrom?_append (base n : Nat) (cs ds : List Char) :
    readFrom? base n (cs ++ ds) = (readFrom? base n cs).bind fun m => readFrom? base m ds := by
  induction cs generalizing n with
  | nil => rfl
  | cons c rest ih =>
    simp only [List.cons_append, readFrom?]
    cases digit? base c <;> simp [ih]

theorem read?_write {base : Nat} (h₁ : 1 < base) (h₂ : base ≤ 16) (n : Nat) :
    read? base (write base n) = some n := by
  unfold read? write
  induction n using Nat.strongRecOn with
  | _ n ih =>
    by_cases h : n < base
    · rw [Nat.toDigits_of_lt_base h]
      simp [readFrom?, digit?_digitChar h (by omega)]
    · have hb : base ≤ n := by omega
      rw [Nat.toDigits_of_base_le h₁ hb, readFrom?_append,
        ih (n / base) (Nat.div_lt_self (by omega) h₁)]
      have := Nat.mod_lt n (show 0 < base by omega)
      simp [readFrom?, digit?_digitChar this (by omega), Nat.div_add_mod]

theorem readFrom?_replicate_zero {base : Nat} (h : 0 < base) (k : Nat) :
    readFrom? base 0 (List.replicate k '0') = some 0 := by
  induction k with
  | zero => rfl
  | succ k ih =>
    have : digit? base '0' = some 0 := by simp [digit?, Option.filter, h]
    simp [List.replicate_succ, readFrom?, this, ih]

theorem read?_writePadded {base : Nat} (h₁ : 1 < base) (h₂ : base ≤ 16) (width n : Nat) :
    read? base (writePadded base width n) = some n := by
  unfold read? writePadded
  rw [List.leftpad, readFrom?_append, readFrom?_replicate_zero (by omega)]
  exact read?_write h₁ h₂ n

end VaultIndex.Digits
