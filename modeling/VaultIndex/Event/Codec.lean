import VaultIndex.Event.History
import VaultIndex.Evm.Codec
import VaultIndex.Json.Record

/-!
# Events in JSON
-/

namespace VaultIndex

open Json (Reader Record)

namespace EventKind

def json (k : EventKind) : Json := .ofString k.name

def reader : Reader EventKind := Json.variant (all.map fun k => (k.name, k))

end EventKind

namespace EventRecord

def json (r : EventRecord) : Json :=
  .ofFields
    [("eventType", r.kind.json),
      ("txHash", r.txHash.json),
      ("blockNumber", .ofWord64 r.block),
      ("txIndex", .ofWord64 r.txIndex),
      ("logIndex", .ofWord64 r.logIndex),
      ("value", r.value.json)]

def record : Record EventRecord :=
  (Record.make EventRecord.mk)
    |>.required "eventType" EventKind.reader
    |>.required "txHash" Hash.reader
    |>.required "blockNumber" Json.word64
    |>.required "txIndex" Json.word64
    |>.required "logIndex" Json.word64
    |>.required "value" U256.reader

def reader : Reader EventRecord := record.reader

end EventRecord

namespace EventHistory

/-- The events of a vault by their blocks. -/
def blocksJson (blocks : BlockEvents) : Json := .ofNumberTable (.ofList EventRecord.json) blocks

def json (h : EventHistory) : Json := .ofAddressTable blocksJson h.vaults

/-- Reads a history as it stands; nothing in it is checked or put in order. -/
def reader : Reader EventHistory := fun v => do
  return ⟨← Json.addressTable (Json.numberTable (Json.list EventRecord.reader)) v⟩

end EventHistory

end VaultIndex
