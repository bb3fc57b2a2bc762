import VaultIndex.Event.Codec
import VaultIndex.Proofs.WordTexts

/-!
# Texts of histories

A history is read back from its text, whatever stands in it and in whatever order its vaults are
written (`EventHistory.readText_json`).
-/

namespace VaultIndex

open Json (readText)
open Json.Record (Reads)

namespace EventKind

lemma reader_json (k : EventKind) : reader k.json = .ok k := by
  apply Json.variant_ofString
  cases k <;> rfl

end EventKind

namespace EventRecord

lemma written_json (r : EventRecord) : r.json.Written := by
  apply Json.Written.ofFields
  simp only [List.forall_mem_cons, List.not_mem_nil, false_imp_iff, implies_true, and_true]
  exact ⟨.ofString _, r.txHash.written_json, .ofNat _, .ofNat _, .ofNat _, U256.written_json _⟩

lemma reader_json (r : EventRecord) : reader r.json = .ok r := by
  obtain ⟨kind, txHash, block, txIndex, logIndex, value⟩ := r
  have reads : record.Reads _ (mk kind txHash block txIndex logIndex value) :=
    (Reads.make mk).required kind.reader_json |>.required txHash.reader_json
      |>.required (Json.word64_ofWord64 block) |>.required (Json.word64_ofWord64 txIndex)
      |>.required (Json.word64_ofWord64 logIndex) |>.required (U256.reader_json value)
  exact reads.reader_eq (by decide)

end EventRecord

namespace EventHistory

lemma written_blocksJson (blocks : BlockEvents) : (blocksJson blocks).Written := by
  apply Json.Written.ofFields
  intro f hf
  obtain ⟨e, -, rfl⟩ := List.mem_map.1 hf
  exact .ofList fun r _ => r.written_json

lemma reader_blocksJson (blocks : BlockEvents) :
    Json.numberTable (Json.list EventRecord.reader) (blocksJson blocks) = .ok blocks := by
  have lists (records : List EventRecord) :
      Json.list EventRecord.reader (.ofList EventRecord.json records) = .ok records := by
    rw [Json.list_ofList (f := id) fun r _ => r.reader_json, List.map_id]
  exact Json.table_ofFields_of_perm Json.word64Key?_quote (fun e _ => lists e.2) (.refl _)

/-- The JSON of a history whose vaults are written in the given order. -/
def jsonOf (vaults : List (Address × BlockEvents)) : Json :=
  .ofFields (vaults.map fun e => (e.1.text, blocksJson e.2))

lemma jsonOf_entries (h : EventHistory) : jsonOf h.vaults.entries = h.json := rfl

lemma written_jsonOf (vaults : List (Address × BlockEvents)) : (jsonOf vaults).Written := by
  apply Json.Written.ofFields
  intro f hf
  obtain ⟨e, -, rfl⟩ := List.mem_map.1 hf
  exact written_blocksJson e.2

lemma reader_jsonOf {h : EventHistory} {vaults : List (Address × BlockEvents)}
    (perm : vaults.Perm h.vaults.entries) : reader (jsonOf vaults) = .ok h := by
  have table : Json.addressTable (Json.numberTable (Json.list EventRecord.reader)) (jsonOf vaults) =
      .ok h.vaults :=
    Json.table_ofFields_of_perm Json.addressKey?_quote (fun e _ => reader_blocksJson e.2) perm
  rw [reader, table]
  rfl

/-- Every history is read back from its text, in either layout and with its vaults in any order. -/
theorem readText_json (h : EventHistory) :
    (readText reader h.json.compact = .ok h ∧ readText reader h.json.pretty = .ok h) ∧
    ∀ vaults, vaults.Perm h.vaults.entries →
      readText reader (jsonOf vaults).compact = .ok h ∧
      readText reader (jsonOf vaults).pretty = .ok h := by
  have enumerated : ∀ vaults, vaults.Perm h.vaults.entries →
      readText reader (jsonOf vaults).compact = .ok h ∧
      readText reader (jsonOf vaults).pretty = .ok h := by
    intro vaults perm
    obtain ⟨compact, pretty⟩ := (written_jsonOf vaults).readText_eq reader
    rw [compact, pretty, reader_jsonOf perm]
    exact ⟨rfl, rfl⟩
  refine ⟨?_, enumerated⟩
  rw [← h.jsonOf_entries]
  exact enumerated _ (.refl _)

/-- The vaults of a history with an empty block, an empty vault and the greatest numbers, written
backwards. -/
theorem readText_json_of_backward_vaults :
    let record : EventRecord := ⟨.managementFee, ⟨0⟩, 7, 3, 18446744073709551615, .allOnes 256⟩
    let blocks : BlockEvents := .ofList [(18446744073709551615, [record, record]), (0, [])]
    let h : EventHistory := ⟨.ofList [(⟨.allOnes 160⟩, blocks), (.zero, ∅)]⟩
    readText reader (jsonOf h.vaults.entries.reverse).pretty = .ok h := by
  intro record blocks h
  exact ((readText_json h).2 _ (List.reverse_perm _)).2

end EventHistory

end VaultIndex
