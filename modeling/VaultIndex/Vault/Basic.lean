import VaultIndex.Decimal.Basic
import VaultIndex.Evm.Word

/-!
# Vaults

Vaults as the indexing pass has exported them, and the strategies that a vault's assets are lent
out to.
-/

namespace VaultIndex

inductive VaultKind where
  | legacy
  /-- A vault with one strategy. -/
  | single
  /-- A vault that allocates to many strategies. -/
  | multiple
deriving DecidableEq, Inhabited

structure VaultMetadata where
  /-- Whether the APR weighted by debt ratios is the net one, in place of the oracle's. -/
  prefersDebtRatio : Bool := false
deriving DecidableEq, Inhabited

structure Vault where
  chainId : ChainId
  address : Address
  version : String
  kind : VaultKind := .legacy
  /-- The block in which the vault was deployed. -/
  activation : UInt64 := 0
  /-- `none` where the total assets were never read. -/
  lastTotalAssets : Option Decimal := none
  metadata : VaultMetadata := {}
deriving DecidableEq, Inhabited

/-- A strategy of a vault. Debt ratio and performance fee count ten-thousandths. -/
structure Strategy where
  address : Address
  vaultAddress : Address
  lastDebtRatio : Option U256 := none
  lastPerformanceFee : U256 := 0
deriving DecidableEq, Inhabited

namespace Vault

/-- A vault of which nothing is known but where it is. -/
def new (chainId : ChainId) (address : Address) (version : String) : Vault :=
  { chainId, address, version }

/-- Whether the vault has no known deposits. -/
def isEmpty (v : Vault) : Bool := v.lastTotalAssets.all Decimal.isZero

/-- The version up to its first point. -/
def majorVersion (v : Vault) : String := String.ofList (v.version.toList.takeWhile (· ≠ '.'))

/-- A vault of the third generation says so by its kind or by its version. -/
def isV3 (v : Vault) : Bool :=
  v.kind = .single || v.kind = .multiple || v.majorVersion = "3" || v.majorVersion = "~3"

end Vault

namespace Strategy

/-- A strategy without an allocation. -/
def new (address vaultAddress : Address) : Strategy := { address, vaultAddress }

/-- The debt ratio; `none` for a strategy without an allocation. -/
def activeDebtRatio (s : Strategy) : Option U256 := s.lastDebtRatio.filter (· ≠ 0)

end Strategy

end VaultIndex
