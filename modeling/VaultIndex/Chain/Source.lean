import VaultIndex.Event.Source
import VaultIndex.Oracle.Basic

/-!
# Chain sources

Where the event sources and the oracles of chains are had. An attempt may fail, and it may change
what lies outside.
-/

namespace VaultIndex

structure ChainSource (m : Type → Type) where
  eventSource : ChainId → m (Except ChainError (EventSource m))
  aprOracle : ChainId → Address → m (Except ChainError (AprOracle m))

end VaultIndex
