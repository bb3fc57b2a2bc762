import VaultIndex.Apr.Tasks
import VaultIndex.Harvest.Tasks
import VaultIndex.Index.Service

/-!
# What may be reported on a chain

The two harvests and the calculation of a chain follow each other. In each of them the vaults and
the strategies of a vault may be enumerated, and the tasks may move, in any order.
-/

namespace VaultIndex.Indexer

/-- A report on a chain that a run can come to, with what has been counted by then. -/
inductive Outcome (x : Indexer) (source : ChainSource Id) (chain : ChainId) (c : ChainSnapshot)
    (before : Tally) : ChainReport → Tally → Prop where
  | reported {streams calculations : Nat} {listed : Vault → List Strategy}
      {managementFees performanceFees : EventHistory} {apys : Table Address ForwardApy}
      {first second after : Tally}
      (hm : Harvest.Outcome source chain .managementFee x.range streams c.vaultsByAddress before
        managementFees first)
      (hp : Harvest.Outcome source chain .performanceFee x.range streams c.vaultsByAddress first
        performanceFees second)
      (hl : ∀ v, (listed v).Perm (strategiesOf c.strategiesByVault v))
      (ha : ForwardApy.Outcome x.registry source listed calculations c.vaultsByAddress second
        apys after) :
      Outcome x source chain c before ⟨managementFees, performanceFees, apys⟩ after

end VaultIndex.Indexer
