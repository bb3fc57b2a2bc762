import VaultIndex.Chain.Error

/-!
# APR oracles

A contract that tells what a vault or a strategy is expected to yield over a year, as a whole number
of units of `10 ^ -18`.
-/

namespace VaultIndex

/-- What an oracle can be asked. -/
inductive OracleCall where
  /-- What a strategy yields once its debt has changed by so much. -/
  | strategyApr (strategy : Address) (debtChange : BitVec 256)
  | currentApr (vault : Address)
deriving DecidableEq, Inhabited

namespace OracleCall

/-- The name of the contract's function. -/
def function : OracleCall → String
  | strategyApr .. => "getStrategyApr"
  | currentApr _ => "getCurrentApr"

/-- The contract that is asked about. -/
def subject : OracleCall → Address
  | strategyApr strategy _ => strategy
  | currentApr vault => vault

end OracleCall

/-- An oracle that is asked one thing at a time; a call may change what later ones answer. -/
abbrev AprOracle (m : Type → Type) := OracleCall → m (Except ChainError U256)

/-- An oracle that keeps a list of the calls made to it. -/
def AprOracle.recorded {m : Type → Type} [Monad m] (oracle : AprOracle m) :
    AprOracle (StateT (List OracleCall) m) := fun call => do
  modify (· ++ [call])
  oracle call

end VaultIndex
