/-!
# Decimals

Exact decimal numbers of any length. Arithmetic never drops trailing zeros, so the same number has
many forms; `Decimal.value` says which number a form stands for, and addition, subtraction and
multiplication are exact on it.
-/

namespace VaultIndex

/-- The decimal number `unscaled · 10 ^ (-scale)`. -/
structure Decimal where
  unscaled : Int
  scale : Int
deriving DecidableEq, Inhabited

namespace Decimal

def zero : Decimal := ⟨0, 0⟩

/-- A whole number. -/
def ofInt (n : Int) : Decimal := ⟨n, 0⟩

/-- An amount counted in units of the given decimal place. -/
def ofUnits (n : Nat) (decimals : Nat) : Decimal := ⟨n, decimals⟩

/-- The number that a decimal stands for. -/
def value (d : Decimal) : Rat :=
  mkRat (d.unscaled * Nat.pow 10 (-d.scale).toNat) (Nat.pow 10 d.scale.toNat)

/-- Two decimals are the same number. -/
def Same (a b : Decimal) : Prop := a.value = b.value

def isZero (d : Decimal) : Bool := d.unscaled == 0

/-- The unscaled part of a decimal at a scale no smaller than its own. -/
def unscaledAt (d : Decimal) (scale : Int) : Int :=
  d.unscaled * Nat.pow 10 (scale - d.scale).toNat

def add (a b : Decimal) : Decimal :=
  let scale := max a.scale b.scale
  ⟨a.unscaledAt scale + b.unscaledAt scale, scale⟩

def sub (a b : Decimal) : Decimal :=
  let scale := max a.scale b.scale
  ⟨a.unscaledAt scale - b.unscaledAt scale, scale⟩

def mul (a b : Decimal) : Decimal := ⟨a.unscaled * b.unscaled, a.scale + b.scale⟩

instance : Add Decimal := ⟨add⟩
instance : Sub Decimal := ⟨sub⟩
instance : Mul Decimal := ⟨mul⟩

end Decimal

end VaultIndex
