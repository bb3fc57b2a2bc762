import VaultIndex.Chain.Registry
import VaultIndex.Chain.Source
import VaultIndex.Decimal.Basic
import VaultIndex.Metrics.Tally

/-!
# Asking an oracle

The APRs of vaults and strategies as decimals. A vault that the oracle knows nothing about is asked
for a second time in an older way.
-/

namespace VaultIndex

/-- The decimal places of an oracle's answers. -/
def aprDecimals : Nat := 18

/-- An oracle's answer as a decimal. -/
def normalizedApr (n : U256) : Decimal := .ofUnits n.toNat aprDecimals

/-- The oracle of a chain. -/
structure OracleAdapter (m : Type → Type) where
  chain : ChainId
  ask : AprOracle m

namespace OracleAdapter

variable {m : Type → Type} [Monad m]

/-- The oracle of a chain; `none` where the chain is unknown, has no oracle, or the oracle cannot be
reached. -/
def connect? (registry : ChainRegistry) (source : ChainSource m) (chain : ChainId) :
    Activity m (Option (OracleAdapter m)) := do
  match (registry.get? chain).bind ChainConfig.aprOracle? with
  | none => return none
  | some address =>
    match ← Activity.outside (source.aprOracle chain address) with
    | .ok ask => return some ⟨chain, ask⟩
    | .error _ => return none

/-- The APR of a vault seen as a strategy; where that is zero or unknown, its current APR, and zero
where this is unknown too. -/
def vaultApr (a : OracleAdapter m) (vault : Address) : Activity m Decimal := do
  let first ← Activity.outside (a.ask (.strategyApr vault 0))
  match first with
  | .ok apr => if apr ≠ 0 then return normalizedApr apr
  | .error _ => pure ()
  Activity.count (.oracleFallbacks a.chain) 1
  match ← Activity.outside (a.ask (.currentApr vault)) with
  | .ok apr => return normalizedApr apr
  | .error _ => return .zero

/-- The APR of a strategy. -/
def strategyApr (a : OracleAdapter m) (strategy : Address) :
    Activity m (Except ChainError Decimal) := do
  match ← Activity.outside (a.ask (.strategyApr strategy 0)) with
  | .ok apr => return .ok (normalizedApr apr)
  | .error cause =>
    Activity.count (.strategyAprFailures a.chain) 1
    return .error cause

end OracleAdapter

end VaultIndex
