import VaultIndex.Oracle.Adapter
import VaultIndex.Vault.Basic

/-!
# APRs weighted by debt ratios

What a vault with many strategies yields, as the sum of what its strategies yield on their shares of
the vault's debt, after their fees and a flat haircut. All of it is exact.
-/

namespace VaultIndex

/-- The decimal places of debt ratios and fees. -/
def ratioDecimals : Nat := 4

/-- A ratio in ten-thousandths as a decimal. -/
def ratio (n : U256) : Decimal := .ofUnits n.toNat ratioDecimals

/-- What is left of a yield after the flat haircut. -/
def haircut : Decimal := ⟨9, 1⟩

/-- The share of a strategy's gains that its fee leaves to depositors. -/
def Strategy.feeMultiplier (s : Strategy) : Decimal := .ofInt 1 - ratio s.lastPerformanceFee

/-- What a strategy with an APR and a debt ratio adds to its vault's APR. -/
def Strategy.contribution (s : Strategy) (apr : Decimal) (debtRatio : U256) : Decimal :=
  apr * ratio debtRatio * s.feeMultiplier

namespace DebtRatio

variable {m : Type → Type} [Monad m]

/-- The APR of the first strategy that the oracle answers for, after fee and haircut. -/
def firstApr (a : OracleAdapter m) : List Strategy → Activity m Decimal
  | [] => return .zero
  | s :: rest => do
    match ← a.strategyApr s.address with
    | .ok apr => return apr * s.feeMultiplier * haircut
    | .error _ => firstApr a rest

/-- What the strategies with an allocation add to a sum; those without an answer add nothing. -/
def weightedSum (a : OracleAdapter m) : List Strategy → Decimal → Activity m Decimal
  | [], sum => return sum
  | s :: rest, sum => do
    match s.activeDebtRatio with
    | none => weightedSum a rest sum
    | some debtRatio =>
      match ← a.strategyApr s.address with
      | .ok apr => weightedSum a rest (sum + s.contribution apr debtRatio)
      | .error _ => weightedSum a rest sum

end DebtRatio

/-- Strategies in ascending order of their addresses. -/
def orderedStrategies (strategies : List Strategy) : List Strategy :=
  strategies.mergeSort fun s t => s.address.word.toNat ≤ t.address.word.toNat

/-- The APR of a vault by its strategies, which are asked about in ascending order of addresses. A
vault without deposits has no shares; the first strategy with an answer speaks for it. -/
def debtRatioApr {m : Type → Type} [Monad m] (a : OracleAdapter m) (v : Vault)
    (strategies : List Strategy) : Activity m Decimal := do
  if v.isEmpty then DebtRatio.firstApr a (orderedStrategies strategies)
  else return (← DebtRatio.weightedSum a (orderedStrategies strategies) .zero) * haircut

end VaultIndex
