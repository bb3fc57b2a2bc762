import Mathlib.Data.List.Basic
import VaultIndex.Harvest.Intake
import VaultIndex.Proofs.Arrangement
import VaultIndex.Proofs.Tables

/-!
# What filing leaves behind

Filing events changes what stands under one vault and one block and nothing else. After any number
of filings the events under a key are those that were filed under it, arranged once
(`EventHistory.get?_extendAll`), and a key is there as soon as it was named, even where every event
that came with it was dropped.
-/

namespace VaultIndex.EventHistory

/-! ### One filing -/

lemma vault?_extendBlock_self (h : EventHistory) (vault : Address) (block : UInt64)
    (records : List EventRecord) :
    (h.extendBlock vault block records).vault? vault =
      some (((h.vault? vault).getD ∅).update block fun stored? =>
        extended block records (stored?.getD [])) := by
  simp [vault?, extendBlock]

lemma vault?_extendBlock_ne (h : EventHistory) {vault other : Address} (block : UInt64)
    (records : List EventRecord) (hv : vault ≠ other) :
    (h.extendBlock vault block records).vault? other = h.vault? other := by
  simp [vault?, extendBlock, Table.get?_update_ne _ _ hv]

lemma get?_getD_vault? (h : EventHistory) (vault : Address) (block : UInt64) :
    ((h.vault? vault).getD ∅).get? block = h.get? vault block := by
  cases hv : h.vault? vault <;> simp [get?, hv]

theorem get?_extendBlock_self (h : EventHistory) (vault : Address) (block : UInt64)
    (records : List EventRecord) :
    (h.extendBlock vault block records).get? vault block =
      some (extended block records ((h.get? vault block).getD [])) := by
  rw [get?, vault?_extendBlock_self, Option.bind_some, Table.get?_update_self, get?_getD_vault?]

theorem get?_extendBlock_ne (h : EventHistory) {k i : EventKey} (records : List EventRecord)
    (hk : k ≠ i) :
    (h.extendBlock k.vault k.block records).get? i.vault i.block = h.get? i.vault i.block := by
  by_cases hv : k.vault = i.vault
  · have hb : k.block ≠ i.block := fun hb => hk (by cases k; cases i; simp_all)
    rw [← hv, get?, vault?_extendBlock_self, Option.bind_some, Table.get?_update_ne _ _ hb,
      get?_getD_vault?]
  · rw [get?, vault?_extendBlock_ne _ _ _ hv, get?]

/-- Histories that know the same vaults and hold the same events under every block are equal. -/
theorem ext_get? {h g : EventHistory}
    (hv : ∀ vault, (h.vault? vault).isSome = (g.vault? vault).isSome)
    (hb : ∀ vault block, h.get? vault block = g.get? vault block) : h = g := by
  have blocks : ∀ vault, h.vault? vault = g.vault? vault := by
    intro vault
    have hs := hv vault
    have hg := hb vault
    simp only [get?] at hg
    cases h₁ : h.vault? vault <;> cases h₂ : g.vault? vault <;> simp [h₁, h₂] at hs hg
    · rfl
    · exact congrArg some (Table.ext_get? hg)
  cases h; cases g
  exact congrArg EventHistory.mk (Table.ext_get? blocks)

/-! ### Many filings -/

/-- Files events key by key. -/
def extendAll (h : EventHistory) (calls : List (EventKey × List EventRecord)) : EventHistory :=
  calls.foldl (fun h c => h.extendBlock c.1.vault c.1.block c.2) h

/-- The events that calls bring for a key, without those of other blocks. -/
def passed (calls : List (EventKey × List EventRecord)) (k : EventKey) : List EventRecord :=
  (calls.filter (·.1 = k)).flatMap fun c => c.2.filter (·.block = k.block)

variable (h : EventHistory) (c : EventKey × List EventRecord)
  (calls : List (EventKey × List EventRecord))

@[simp] lemma extendAll_nil : h.extendAll [] = h := rfl

@[simp] lemma extendAll_cons :
    h.extendAll (c :: calls) = (h.extendBlock c.1.vault c.1.block c.2).extendAll calls := rfl

lemma passed_cons_self :
    passed (c :: calls) c.1 = c.2.filter (·.block = c.1.block) ++ passed calls c.1 := by
  simp [passed]

lemma passed_cons_ne {k : EventKey} (hk : c.1 ≠ k) : passed (c :: calls) k = passed calls k := by
  simp [passed, hk]

lemma block_of_mem_passed {k : EventKey} {r : EventRecord} (hr : r ∈ passed calls k) :
    r.block = k.block := by
  simp only [passed, List.mem_flatMap, List.mem_filter, decide_eq_true_eq] at hr
  obtain ⟨_, _, _, h⟩ := hr
  exact h

lemma passed_eq_nil {k : EventKey} (hk : ∀ c ∈ calls, c.1 ≠ k) : passed calls k = [] := by
  have none : calls.filter (·.1 = k) = [] := by
    simpa only [List.filter_eq_nil_iff, decide_eq_true_eq] using hk
  simp [passed, none]

/-- Under a key that no call names all stays as it was. -/
theorem get?_extendAll_of_not_named {k : EventKey} (hk : ∀ c ∈ calls, c.1 ≠ k) :
    (h.extendAll calls).get? k.vault k.block = h.get? k.vault k.block := by
  induction calls generalizing h with
  | nil => rfl
  | cons c calls ih =>
    rw [extendAll_cons, ih _ fun d hd => hk d (List.mem_cons_of_mem _ hd),
      get?_extendBlock_ne _ _ (hk c List.mem_cons_self)]

/-- Under a key that some call names stand the events of before and those that the calls brought,
arranged as if they had been filed together. -/
theorem get?_extendAll {k : EventKey} (hk : ∃ c ∈ calls, c.1 = k) :
    (h.extendAll calls).get? k.vault k.block =
      some (arranged ((h.get? k.vault k.block).getD [] ++ passed calls k)) := by
  induction calls generalizing h with
  | nil => simp at hk
  | cons c calls ih =>
    rw [extendAll_cons]
    by_cases later : ∃ d ∈ calls, d.1 = k
    · rw [ih _ later]
      by_cases hc : c.1 = k
      · subst hc
        rw [get?_extendBlock_self, Option.getD_some, extended, arranged_arranged_append,
          passed_cons_self, List.append_assoc]
      · rw [get?_extendBlock_ne _ _ hc, passed_cons_ne _ _ hc]
    · have others : ∀ d ∈ calls, d.1 ≠ k := fun d hd hdk => later ⟨d, hd, hdk⟩
      obtain rfl : c.1 = k := by
        obtain ⟨d, hd, hdk⟩ := hk
        rcases List.mem_cons.1 hd with rfl | hd
        · exact hdk
        · exact absurd hdk (others d hd)
      rw [get?_extendAll_of_not_named _ _ others, get?_extendBlock_self, extended,
        passed_cons_self, passed_eq_nil _ others, List.append_nil]

/-- A vault is there if it was before or some call names it. -/
theorem isSome_vault?_extendAll (vault : Address) :
    ((h.extendAll calls).vault? vault).isSome = true ↔
      (h.vault? vault).isSome = true ∨ ∃ c ∈ calls, c.1.vault = vault := by
  induction calls generalizing h with
  | nil => simp
  | cons c calls ih =>
    rw [extendAll_cons, ih]
    by_cases hv : c.1.vault = vault
    · subst hv
      simp [vault?_extendBlock_self]
    · simp [vault?_extendBlock_ne _ _ _ hv, hv]

/-! ### Histories made from nothing -/

@[simp] lemma vault?_empty (vault : Address) : empty.vault? vault = none := rfl

@[simp] lemma get?_empty (vault : Address) (block : UInt64) : empty.get? vault block = none := rfl

theorem get?_extendAll_empty {k : EventKey} (hk : ∃ c ∈ calls, c.1 = k) :
    (empty.extendAll calls).get? k.vault k.block = some (arranged (passed calls k)) := by
  simp [get?_extendAll _ _ hk]

lemma isSome_get?_extendAll_empty (k : EventKey) :
    ((empty.extendAll calls).get? k.vault k.block).isSome = true ↔ ∃ c ∈ calls, c.1 = k := by
  by_cases hk : ∃ c ∈ calls, c.1 = k
  · simp [get?_extendAll_empty _ hk, hk]
  · have others : ∀ c ∈ calls, c.1 ≠ k := fun c hc hck => hk ⟨c, hc, hck⟩
    simp [get?_extendAll_of_not_named _ _ others, hk]

end VaultIndex.EventHistory
