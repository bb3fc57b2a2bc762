import VaultIndex.Vault.Codec

/-!
# Snapshots

The vaults and strategies of each chain, as the indexing pass exports them. Lists may hold an
address more than once; the last entry counts.
-/

namespace VaultIndex

open Json (Reader Record)

structure ChainSnapshot where
  vaults : List Vault := []
  /-- Strategies by the address of their vault. -/
  strategies : Table Address (List Strategy) := ∅
deriving DecidableEq, Inhabited

namespace ChainSnapshot

/-- Vaults by their addresses. -/
def byAddress (vaults : List Vault) : Table Address Vault :=
  .ofList (vaults.map fun v => (v.address, v))

def vaultsByAddress (c : ChainSnapshot) : Table Address Vault := byAddress c.vaults

/-- Strategies by their addresses. -/
def strategiesByAddress (strategies : List Strategy) : Table Address Strategy :=
  .ofList (strategies.map fun s => (s.address, s))

/-- Strategies by their vaults and their addresses. -/
def strategiesByVault (c : ChainSnapshot) : Table Address (Table Address Strategy) :=
  c.strategies.map strategiesByAddress

def record : Record ChainSnapshot :=
  (Record.make ChainSnapshot.mk)
    |>.withDefault "vaults" (Json.list Vault.reader) []
    |>.withDefault "strategies" (Json.addressTable (Json.list Strategy.reader)) ∅

def reader : Reader ChainSnapshot := record.reader

def json (c : ChainSnapshot) : Json :=
  .ofFields
    [("vaults", .ofList Vault.json c.vaults),
      ("strategies", .ofAddressTable (.ofList Strategy.json) c.strategies)]

end ChainSnapshot

/-- A snapshot of each chain. -/
structure VaultSnapshot where
  chains : Table ChainId ChainSnapshot
deriving DecidableEq, Inhabited

namespace VaultSnapshot

def reader : Reader VaultSnapshot := fun v => do
  return ⟨← Json.numberTable ChainSnapshot.reader v⟩

def json (s : VaultSnapshot) : Json := .ofNumberTable ChainSnapshot.json s.chains

/-- Reads the text of a snapshot. -/
def ofText (s : String) : Except Json.ReadError VaultSnapshot := Json.readText reader s

end VaultSnapshot

end VaultIndex
