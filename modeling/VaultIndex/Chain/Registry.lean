import VaultIndex.Chain.Config

/-!
# Chain registries

The chains known to a run, each under its own number. A registry is made from a list of
configurations if no number occurs twice and every limit is positive; otherwise the first
configuration to break a rule is named.
-/

namespace VaultIndex

/-- A rule that a chain's configuration breaks. -/
inductive RegistryError where
  | configuredTwice (chain : ChainId)
  | zeroBlockRange (chain : ChainId)
  | zeroTimeout (chain : ChainId)
deriving DecidableEq, Inhabited

namespace RegistryError

/-- The chain whose configuration breaks the rule. -/
def chain : RegistryError → ChainId
  | configuredTwice chain | zeroBlockRange chain | zeroTimeout chain => chain

/-- What is wrong with the chain. -/
def complaint : RegistryError → String
  | configuredTwice _ => " is configured twice"
  | zeroBlockRange _ => " has a zero maxBlockRange"
  | zeroTimeout _ => " has a zero rpcTimeoutSecs"

def message (e : RegistryError) : String :=
  "invalid chains config: chain " ++ String.ofList (Digits.write 10 e.chain.toNat) ++ e.complaint

end RegistryError

structure ChainRegistry where
  chains : Table ChainId ChainConfig
deriving DecidableEq, Inhabited

namespace ChainRegistry

def empty : ChainRegistry := ⟨∅⟩

/-- One more chain; of several broken rules the first one is named. -/
def add (r : ChainRegistry) (c : ChainConfig) : Except RegistryError ChainRegistry :=
  if r.chains.contains c.chainId then .error (.configuredTwice c.chainId)
  else if c.maxBlockRange = 0 then .error (.zeroBlockRange c.chainId)
  else if c.rpcTimeoutSecs = 0 then .error (.zeroTimeout c.chainId)
  else .ok ⟨r.chains.insert c.chainId c⟩

/-- A registry with further chains. -/
def addAll (r : ChainRegistry) (configs : List ChainConfig) : Except RegistryError ChainRegistry :=
  configs.foldlM add r

/-- The registry of a list of configurations. -/
def ofList (configs : List ChainConfig) : Except RegistryError ChainRegistry := empty.addAll configs

def get? (r : ChainRegistry) (chain : ChainId) : Option ChainConfig := r.chains.get? chain

def contains (r : ChainRegistry) (chain : ChainId) : Bool := r.chains.contains chain

/-- The numbers of the chains, ascending. -/
def chainIds (r : ChainRegistry) : List ChainId := r.chains.keys

def size (r : ChainRegistry) : Nat := r.chains.size

def isEmpty (r : ChainRegistry) : Bool := r.chains.isEmpty

/-- Why the text of a registry is refused. -/
inductive TextError where
  | parse (cause : Json.ReadError)
  | invalid (cause : RegistryError)
deriving DecidableEq

/-- Reads the text of a registry. -/
def ofText (s : String) : Except TextError ChainRegistry := do
  let configs ← (Json.readText (Json.list ChainConfig.reader) s).mapError .parse
  (ofList configs).mapError .invalid

end ChainRegistry

end VaultIndex
