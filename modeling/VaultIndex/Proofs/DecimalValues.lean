import Mathlib.Algebra.Order.Field.Basic
import Mathlib.Data.Rat.Lemmas
import Mathlib.Tactic.Ring
import VaultIndex.Decimal.Basic

/-!
# The numbers of decimals

Arithmetic on decimals is exact: the number of a sum, a difference or a product is the sum, the
difference or the product of the numbers.
-/

namespace VaultIndex.Decimal

lemma value_eq (d : Decimal) : d.value = d.unscaled * (10 : ℚ) ^ (-d.scale) := by
  rw [value, Rat.mkRat_eq_div]
  cases scale : d.scale with
  | ofNat n => simp [div_eq_mul_inv]
  | negSucc n =>
    rw [Int.neg_negSucc, zpow_natCast]
    simp

/-- A number is the same at every scale that has room for it. -/
lemma unscaledAt_mul_zpow {d : Decimal} {scale : Int} (h : d.scale ≤ scale) :
    (d.unscaledAt scale : ℚ) * 10 ^ (-scale) = d.value := by
  obtain ⟨n, rfl⟩ := Int.le.dest h
  have ten : (10 : ℚ) ≠ 0 := by norm_num
  calc (d.unscaledAt (d.scale + n) : ℚ) * 10 ^ (-(d.scale + n))
      = d.unscaled * 10 ^ (n : Int) * 10 ^ (-(d.scale + n)) := by simp [unscaledAt]
    _ = d.unscaled * 10 ^ (n + -(d.scale + n)) := by rw [mul_assoc, zpow_add₀ ten]
    _ = d.value := by rw [value_eq, Int.neg_add, add_neg_cancel_comm_assoc]

@[simp] lemma value_zero : zero.value = 0 := by simp [value_eq, zero]

@[simp] lemma value_ofInt (n : Int) : (ofInt n).value = n := by simp [value_eq, ofInt]

@[simp] lemma value_ofUnits (n decimals : Nat) :
    (ofUnits n decimals).value = n / 10 ^ decimals := by
  simp [value_eq, ofUnits, div_eq_mul_inv]

@[simp] lemma value_add (a b : Decimal) : (a + b).value = a.value + b.value := by
  have sum : a + b = add a b := rfl
  rw [sum, value_eq, add, Int.cast_add, add_mul, unscaledAt_mul_zpow (Int.le_max_left _ _),
    unscaledAt_mul_zpow (Int.le_max_right _ _)]

@[simp] lemma value_sub (a b : Decimal) : (a - b).value = a.value - b.value := by
  have difference : a - b = sub a b := rfl
  rw [difference, value_eq, sub, Int.cast_sub, sub_mul, unscaledAt_mul_zpow (Int.le_max_left _ _),
    unscaledAt_mul_zpow (Int.le_max_right _ _)]

@[simp] lemma value_mul (a b : Decimal) : (a * b).value = a.value * b.value := by
  have product : a * b = mul a b := rfl
  rw [product, value_eq, value_eq a, value_eq b, mul, Int.neg_add, zpow_add₀ (by norm_num)]
  push_cast
  ring

lemma isZero_iff {d : Decimal} : d.isZero = true ↔ d.value = 0 := by
  rw [value_eq, mul_eq_zero, or_iff_left (zpow_ne_zero _ (by norm_num)), Int.cast_eq_zero, isZero,
    beq_iff_eq]

end VaultIndex.Decimal
