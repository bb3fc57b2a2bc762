import Mathlib.Data.Finset.Card
import VaultIndex.Proofs.LatestEvent

/-!
# What a history keeps

A history holds what it was given and nothing else: each event stands under the vault and the block
that it was filed for, as often as it was filed there (`EventHistory.extendAll_conserves`). Events
that were filed for another block than their own are the only ones to be dropped.
-/

namespace VaultIndex.EventHistory

variable (h : EventHistory) (vault : Address) (block : UInt64) (records : List EventRecord)
  (calls : List (EventKey × List EventRecord))

/-! ### Counting events -/

/-- The number of the events under some blocks. -/
def blockCount (blocks : BlockEvents) : Nat := (blocks.values.map List.length).sum

lemma recordCount_eq_sum : h.recordCount = (h.vaults.values.map blockCount).sum := by
  simp [recordCount, EventHistory.records, List.length_flatMap, List.length_flatten]
  rfl

lemma length_extended (stored : List EventRecord) :
    (extended block records stored).length =
      stored.length + records.countP (·.block = block) := by
  rw [extended, arranged, List.length_mergeSort, List.length_append, List.countP_eq_length_filter]

lemma blockCount_update (blocks : BlockEvents) :
    blockCount (blocks.update block fun stored? => extended block records (stored?.getD [])) =
      blockCount blocks + records.countP (·.block = block) := by
  refine Table.sum_values_update List.length blocks ?_
  rw [length_extended]
  cases blocks.get? block <;> rfl

/-- A filing adds to the number of all events that of the events of its block. -/
theorem recordCount_extendBlock :
    (h.extendBlock vault block records).recordCount =
      h.recordCount + records.countP (·.block = block) := by
  rw [recordCount_eq_sum, recordCount_eq_sum]
  refine Table.sum_values_update blockCount h.vaults ?_
  rw [blockCount_update]
  cases h.vaults.get? vault <;> rfl

theorem recordCount_extendAll :
    (h.extendAll calls).recordCount =
      h.recordCount + (calls.map fun c => c.2.countP (·.block = c.1.block)).sum := by
  induction calls generalizing h with
  | nil => rfl
  | cons c calls ih =>
    rw [extendAll_cons, ih, recordCount_extendBlock, List.map_cons, List.sum_cons, Nat.add_assoc]

/-! ### Counting vaults -/

theorem vaultCount_extendAll_empty :
    (empty.extendAll calls).vaultCount = (calls.map (·.1.vault)).toFinset.card := by
  have named : (empty.extendAll calls).vaults.keys.toFinset =
      (calls.map (·.1.vault)).toFinset := by
    ext vault
    have known := isSome_vault?_extendAll empty calls vault
    rw [vault?_empty, Option.isSome_none, or_iff_right Bool.false_ne_true] at known
    rw [List.mem_toFinset, Table.mem_keys_iff, List.mem_toFinset, List.mem_map]
    exact known
  rw [← named, List.toFinset_card_of_nodup (Table.nodup_keys _), vaultCount, Table.size, Table.keys,
    List.length_map]

/-! ### Keeping events -/

/-- Under a key stand the events that the calls brought for it. -/
lemma perm_get?_extendAll_empty (k : EventKey) :
    (((empty.extendAll calls).get? k.vault k.block).getD []).Perm (passed calls k) := by
  by_cases named : ∃ c ∈ calls, c.1 = k
  · rw [get?_extendAll_empty _ named, Option.getD_some]
    exact List.mergeSort_perm _ _
  · have others : ∀ c ∈ calls, c.1 ≠ k := fun c hc hk => named ⟨c, hc, hk⟩
    rw [get?_extendAll_of_not_named _ _ others, passed_eq_nil _ others, get?_empty,
      Option.getD_none]

/-- In a history made by any calls, the events under a block are of that block and stand in the
order of their transactions and logs; under each key stand, each as often as they were passed, the
events of its block that were passed for it; and events and vaults are as many as were passed. -/
theorem extendAll_conserves (calls : List (EventKey × List EventRecord)) :
    let h := empty.extendAll calls
    (∀ vault block stored, h.get? vault block = some stored →
      (∀ r ∈ stored, r.block = block) ∧
        stored.Pairwise fun a b =>
          a.txIndex < b.txIndex ∨ a.txIndex = b.txIndex ∧ a.logIndex ≤ b.logIndex) ∧
    (∀ k : EventKey, ((h.get? k.vault k.block).getD []).Perm
      ((calls.filter (·.1 = k)).flatMap fun c => c.2.filter (·.block = k.block))) ∧
    h.recordCount = (calls.map fun c => c.2.countP (·.block = c.1.block)).sum ∧
    h.vaultCount = (calls.map (·.1.vault)).toFinset.card := by
  intro h
  have tidy : h.Tidy := tidy_extendAll_empty calls
  refine ⟨?_, perm_get?_extendAll_empty calls, ?_, vaultCount_extendAll_empty calls⟩
  · intro vault block stored hs
    exact ⟨tidy.block_eq hs, (tidy.ordered hs).imp EventRecord.notAfter_iff.1⟩
  · have total := recordCount_extendAll empty calls
    have nothing : empty.recordCount = 0 := rfl
    rwa [nothing, Nat.zero_add] at total

end VaultIndex.EventHistory
