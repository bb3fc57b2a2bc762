import Mathlib.Data.List.Basic
import VaultIndex.Event.History

/-!
# The order of the events of a block

The events of a block stand in the order of the chain, and those at one place in the order in which
they came. These two rules leave no choice (`IsArrangement.unique`), and for that reason it does not
matter whether events are arranged once or each time that some arrive
(`EventHistory.arranged_arranged_append`).
-/

namespace VaultIndex

namespace EventRecord

lemma notAfter_iff {a b : EventRecord} :
    a.notAfter b = true ↔
      a.txIndex < b.txIndex ∨ a.txIndex = b.txIndex ∧ a.logIndex ≤ b.logIndex := by
  simp [notAfter]

lemma position_eq_iff {a b : EventRecord} :
    a.position = b.position ↔ a.txIndex = b.txIndex ∧ a.logIndex = b.logIndex := by
  simp [position]

lemma notAfter_trans (a b c : EventRecord) (hab : a.notAfter b = true)
    (hbc : b.notAfter c = true) : a.notAfter c = true := by
  rw [notAfter_iff] at *
  simp only [UInt64.lt_iff_toNat_lt, UInt64.le_iff_toNat_le, ← UInt64.toNat_inj] at *
  omega

lemma notAfter_total (a b : EventRecord) : (a.notAfter b || b.notAfter a) = true := by
  rw [Bool.or_eq_true, notAfter_iff, notAfter_iff]
  simp only [UInt64.lt_iff_toNat_lt, UInt64.le_iff_toNat_le, ← UInt64.toNat_inj]
  omega

/-- Events of which neither is after the other stand at one place. -/
lemma position_eq_of_notAfter {a b : EventRecord} (hab : a.notAfter b = true)
    (hba : b.notAfter a = true) : a.position = b.position := by
  rw [notAfter_iff] at hab hba
  rw [position_eq_iff]
  simp only [UInt64.lt_iff_toNat_lt, UInt64.le_iff_toNat_le, ← UInt64.toNat_inj] at *
  omega

lemma notAfter_of_position_eq {a b : EventRecord} (h : a.position = b.position) :
    a.notAfter b = true := by
  rw [position_eq_iff] at h
  exact notAfter_iff.2 (.inr ⟨h.1, by simp [h.2]⟩)

end EventRecord

/-- A list holds given events in the order of the chain, and those at one place in the order in
which they are given. -/
structure IsArrangement (l records : List EventRecord) : Prop where
  ordered : l.Pairwise fun a b => a.notAfter b = true
  stable : ∀ p, l.filter (·.position = p) = records.filter (·.position = p)

namespace IsArrangement

variable {l m records : List EventRecord}

lemma mem_iff (h : IsArrangement l records) (r : EventRecord) : r ∈ l ↔ r ∈ records := by
  have hs := congrArg (r ∈ ·) (h.stable r.position)
  simpa using hs

/-- The first of some arranged events is after none of them. -/
lemma head_notAfter {a : EventRecord} (h : IsArrangement (a :: l) records) {r : EventRecord}
    (hr : r ∈ records) : a.notAfter r = true := by
  rcases List.mem_cons.1 ((h.mem_iff r).2 hr) with rfl | hr
  · exact EventRecord.notAfter_of_position_eq rfl
  · exact (List.pairwise_cons.1 h.ordered).1 r hr

/-- The last arranged event is the last one that is given at its place. -/
lemma getLast?_filter_position (h : IsArrangement l records) {r : EventRecord}
    (hr : l.getLast? = some r) :
    (records.filter (·.position = r.position)).getLast? = some r := by
  obtain ⟨front, hf⟩ := List.getLast?_eq_some_iff.1 hr
  rw [← h.stable, hf]
  simp

/-- There is one arrangement of given events. -/
theorem unique (hl : IsArrangement l records) (hm : IsArrangement m records) : l = m := by
  induction l generalizing m records with
  | nil =>
    refine (List.eq_nil_iff_forall_not_mem.2 fun r hr => ?_).symm
    exact absurd ((hl.mem_iff r).2 ((hm.mem_iff r).1 hr)) (by simp)
  | cons a l ih =>
    cases m with
    | nil => exact absurd ((hm.mem_iff a).2 ((hl.mem_iff a).1 (by simp))) (by simp)
    | cons b m =>
      have hab : a.position = b.position :=
        EventRecord.position_eq_of_notAfter (hl.head_notAfter ((hm.mem_iff b).1 (by simp)))
          (hm.head_notAfter ((hl.mem_iff a).1 (by simp)))
      -- the two heads are the first of the events given at their place
      have heads := (hl.stable b.position).trans (hm.stable b.position).symm
      obtain rfl : a = b := by simp [hab] at heads; exact heads.1
      have tails : IsArrangement l m := by
        refine ⟨(List.pairwise_cons.1 hl.ordered).2, fun p => ?_⟩
        have hp := (hl.stable p).trans (hm.stable p).symm
        by_cases h : a.position = p <;> simpa [h] using hp
      rw [ih tails ⟨(List.pairwise_cons.1 hm.ordered).2, fun _ => rfl⟩]

end IsArrangement

namespace EventHistory

lemma mem_arranged {r : EventRecord} {records : List EventRecord} :
    r ∈ arranged records ↔ r ∈ records := List.mem_mergeSort

/-- Sorting moves no event past another one at its place. -/
theorem isArrangement_arranged (records : List EventRecord) :
    IsArrangement (arranged records) records := by
  refine ⟨List.pairwise_mergeSort EventRecord.notAfter_trans EventRecord.notAfter_total records,
    fun p => ?_⟩
  have ties : (records.filter (·.position = p)).Pairwise fun a b => a.notAfter b = true := by
    refine List.pairwise_of_forall_mem_list fun a ha b hb => ?_
    simp only [List.mem_filter, decide_eq_true_eq] at ha hb
    exact EventRecord.notAfter_of_position_eq (ha.2.trans hb.2.symm)
  have kept : (records.filter (·.position = p)).Sublist (arranged records) :=
    List.sublist_mergeSort EventRecord.notAfter_trans EventRecord.notAfter_total ties
      List.filter_sublist
  have sub := kept.filter (·.position = p)
  rw [List.filter_filter] at sub
  simp only [Bool.and_self] at sub
  refine (sub.eq_of_length ?_).symm
  exact (((List.mergeSort_perm records EventRecord.notAfter).filter _).length_eq).symm

theorem isArrangement_iff {l records : List EventRecord} :
    IsArrangement l records ↔ l = arranged records :=
  ⟨fun h => h.unique (isArrangement_arranged records), fun h => h ▸ isArrangement_arranged records⟩

/-- Events that are added to arranged ones may as well be added before any are arranged. -/
theorem arranged_arranged_append (xs ys : List EventRecord) :
    arranged (arranged xs ++ ys) = arranged (xs ++ ys) := by
  refine isArrangement_iff.1 ⟨(isArrangement_arranged _).ordered, fun p => ?_⟩
  rw [(isArrangement_arranged _).stable, List.filter_append, List.filter_append,
    (isArrangement_arranged xs).stable]

@[simp] lemma arranged_nil : arranged [] = [] := by
  rw [← List.length_eq_zero_iff, arranged, List.length_mergeSort, List.length_nil]

end EventHistory

end VaultIndex
