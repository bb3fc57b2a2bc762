import VaultIndex.Apr.Compound
import VaultIndex.Apr.DebtRatio
import VaultIndex.Apr.Forward

/-!
# Computing forward APYs

One vault, or all vaults of the third generation, one after the other in ascending order of their
addresses; `Apr.Tasks` says what happens when they are computed at the same time.
-/

namespace VaultIndex

variable {m : Type → Type} [Monad m]

/-- The APR of a vault by its strategies; only vaults that allocate to many have one. -/
def strategiesApr (a : OracleAdapter m) (v : Vault) (strategies : List Strategy) :
    Activity m Decimal :=
  match v.kind with
  | .multiple => debtRatioApr a v strategies
  | .single | .legacy => return .zero

/-- The forward APY of a vault that yields the given APRs by its oracle and by its strategies. -/
def ForwardApy.ofAprs (v : Vault) (oracle debtRatio : Decimal) : ForwardApy where
  kind := .onchainOracle
  net := compoundApr (if v.metadata.prefersDebtRatio then debtRatio else oracle)
  composite := ⟨compoundApr oracle, compoundApr debtRatio⟩

/-- The forward APY of a vault with the given strategies, in whatever order they come. Where its
chain has no usable oracle nothing is asked. -/
def forwardApy (registry : ChainRegistry) (source : ChainSource m) (v : Vault)
    (strategies : List Strategy) : Activity m ForwardApy := do
  match ← OracleAdapter.connect? registry source v.chainId with
  | none => return .unavailable
  | some a =>
    let oracle ← a.vaultApr v.address
    let debtRatio ← strategiesApr a v strategies
    return .ofAprs v oracle debtRatio

/-- The strategies that are filed under a vault's address. -/
def strategiesOf (strategies : Table Address (Table Address Strategy)) (v : Vault) :
    List Strategy :=
  ((strategies.get? v.address).getD ∅).values

namespace ForwardApy

/-- Adds the forward APYs of vaults, each with the strategies filed under its address. -/
def addAll (registry : ChainRegistry) (source : ChainSource m)
    (strategies : Table Address (Table Address Strategy)) :
    List Vault → Table Address ForwardApy → Activity m (Table Address ForwardApy)
  | [], apys => return apys
  | v :: rest, apys => do
    let apy ← forwardApy registry source v (strategiesOf strategies v)
    addAll registry source strategies rest (apys.insert v.address apy)

end ForwardApy

/-- The forward APYs of the vaults of the third generation. -/
def forwardApys (registry : ChainRegistry) (source : ChainSource m) (vaults : Table Address Vault)
    (strategies : Table Address (Table Address Strategy)) :
    Activity m (Table Address ForwardApy) :=
  ForwardApy.addAll registry source strategies (vaults.values.filter Vault.isV3) ∅

end VaultIndex
