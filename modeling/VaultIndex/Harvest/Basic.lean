import VaultIndex.Chain.Source
import VaultIndex.Harvest.Intake
import VaultIndex.Vault.Basic

/-!
# Harvests

All events of one kind that the vaults of a chain have emitted, as a history. The vaults are asked
for one after the other, in the order of their addresses; `Harvest.Tasks` says what happens when
they are asked for at the same time.
-/

namespace VaultIndex

variable {m : Type → Type} [Monad m]

namespace Harvest

/-- The blocks that are looked through: from `start`, or where that is zero from the vault's own
activation, up to `stop` or to the newest one. -/
structure Range where
  start : UInt64 := 0
  stop : Option UInt64 := none
deriving DecidableEq, Inhabited

/-- What is asked about the vault under an address. -/
def filterOf (kind : EventKind) (range : Range) (address : Address) (v : Vault) : EventFilter where
  address
  kind
  fromBlock := if range.start = 0 then v.activation else range.start
  toBlock := range.stop

/-- What is asked about the vaults of a chain, each under an address; those of other chains are
passed over. -/
def filters (chain : ChainId) (kind : EventKind) (range : Range) (vaults : List (Address × Vault)) :
    List EventFilter :=
  (vaults.filter (·.2.chainId = chain)).map fun e => filterOf kind range e.1 e.2

/-- Takes in what a source yields for each filter in turn. -/
def gather (chain : ChainId) (source : EventSource m) :
    List EventFilter → Gathered → Activity m Gathered
  | [], g => return g
  | filter :: rest, g => do
    let (g, _) ← filterVaultEvents chain source filter g
    gather chain source rest g

end Harvest

/-- The events of a kind that the vaults of a chain have emitted; none where the chain has no event
source. -/
def harvest (source : ChainSource m) (chain : ChainId) (kind : EventKind)
    (range : Harvest.Range) (vaults : Table Address Vault) : Activity m EventHistory := do
  match ← Activity.outside (source.eventSource chain) with
  | .error _ => return .empty
  | .ok events =>
    let gathered ← Harvest.gather chain events (Harvest.filters chain kind range vaults.entries) ∅
    return gathered.history

/-- The changes of management fees. -/
def harvestManagementFees (source : ChainSource m) (chain : ChainId)
    (range : Harvest.Range) (vaults : Table Address Vault) : Activity m EventHistory :=
  harvest source chain .managementFee range vaults

/-- The changes of performance fees. -/
def harvestPerformanceFees (source : ChainSource m) (chain : ChainId)
    (range : Harvest.Range) (vaults : Table Address Vault) : Activity m EventHistory :=
  harvest source chain .performanceFee range vaults

end VaultIndex
