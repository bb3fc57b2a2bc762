import VaultIndex.Chain.Registry
import VaultIndex.Chain.Source
import VaultIndex.Rpc.Oracle

/-!
# Chain sources over JSON-RPC

Every chain of a registry has a node, which answers for its logs and for its oracle.
-/

namespace VaultIndex

namespace RpcNode

variable {m : Type → Type} [Monad m]

/-- The configuration of a chain. -/
def configOf (registry : ChainRegistry) (chain : ChainId) : Except ChainError ChainConfig :=
  match registry.get? chain with
  | some config => .ok config
  | none => .error (.unknownChain chain)

/-- The oracle of a chain; the zero address is none. -/
def oracleOf (registry : ChainRegistry) (node : ChainConfig → RpcNode m)
    (chain : ChainId) (oracle : Address) : Except ChainError (AprOracle m) := do
  let config ← configOf registry chain
  if oracle.isZero then throw (.oracleUnavailable chain)
  return (node config).aprOracle config.rpcTimeout oracle

/-- The chains of a registry, each behind its node. -/
def chainSource (registry : ChainRegistry) (node : ChainConfig → RpcNode m) : ChainSource m where
  eventSource chain := return (configOf registry chain).map fun config =>
    (node config).eventSource config
  aprOracle chain oracle := return oracleOf registry node chain oracle

end RpcNode

end VaultIndex
