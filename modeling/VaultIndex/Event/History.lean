import VaultIndex.Event.Basic

/-!
# Event histories

Events filed by vault and block. Within a block they stand in the order of the chain; events at one
place keep the order in which they were filed.
-/

namespace VaultIndex

/-- Events by the number of their block. -/
abbrev BlockEvents := Table UInt64 (List EventRecord)

/-- Events by vault and block. -/
structure EventHistory where
  vaults : Table Address BlockEvents
deriving DecidableEq, Inhabited

namespace EventHistory

def empty : EventHistory := ⟨∅⟩

/-! ### Filing -/

/-- Events in the order of the chain. -/
def arranged (records : List EventRecord) : List EventRecord :=
  records.mergeSort EventRecord.notAfter

/-- The events of a block with further ones; those of another block are dropped. -/
def extended (block : UInt64) (records stored : List EventRecord) : List EventRecord :=
  arranged (stored ++ records.filter (·.block = block))

/-- Files further events of one block. -/
def extendBlock (h : EventHistory) (vault : Address) (block : UInt64)
    (records : List EventRecord) : EventHistory :=
  ⟨h.vaults.update vault fun blocks? =>
    (blocks?.getD ∅).update block fun stored? => extended block records (stored?.getD [])⟩

/-! ### Looking up -/

/-- The events of a vault. -/
def vault? (h : EventHistory) (vault : Address) : Option BlockEvents := h.vaults.get? vault

/-- The events of a vault in one block. -/
def get? (h : EventHistory) (vault : Address) (block : UInt64) : Option (List EventRecord) :=
  (h.vault? vault).bind (·.get? block)

/-- The last event that is filed for a vault under the last block up to a bound. -/
def latestAt? (h : EventHistory) (vault : Address) (bound : UInt64) : Option EventRecord := do
  let blocks ← h.vault? vault
  let (_, records) ← blocks.atOrBelow? bound
  records.getLast?

/-- The number of vaults. -/
def vaultCount (h : EventHistory) : Nat := h.vaults.size

/-- All events, by vault and block. -/
def records (h : EventHistory) : List EventRecord :=
  h.vaults.values.flatMap fun b => b.values.flatten

/-- The number of events. -/
def recordCount (h : EventHistory) : Nat := h.records.length

def isEmpty (h : EventHistory) : Bool := h.vaults.isEmpty

end EventHistory

end VaultIndex
