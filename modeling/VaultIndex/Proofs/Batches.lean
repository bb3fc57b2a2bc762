import VaultIndex.Proofs.Histories

/-!
# Filing in parts and in another order

What filings come to is a matter of the keys that they name and of the order in which they bring the
events of one place, and of nothing else (`EventHistory.alike_iff`). For this reason a batch of
events may be filed in parts, and filings may change places where all events under a key stand at
different places.
-/

namespace VaultIndex.EventHistory

variable {calls calls' : List (EventKey × List EventRecord)}

/-! ### Filings that come to the same -/

/-- Filings name the same keys as others, and under each key they bring the events of one place in
the same order. -/
structure Alike (calls calls' : List (EventKey × List EventRecord)) : Prop where
  named : ∀ k, (∃ c ∈ calls, c.1 = k) ↔ ∃ c ∈ calls', c.1 = k
  places : ∀ k p,
    (passed calls k).filter (·.position = p) = (passed calls' k).filter (·.position = p)

/-- An arrangement asks for no more than the order of the events of one place. -/
lemma arranged_eq_iff {xs ys : List EventRecord} :
    arranged xs = arranged ys ↔
      ∀ p, xs.filter (·.position = p) = ys.filter (·.position = p) := by
  constructor
  · intro same p
    rw [← (isArrangement_arranged xs).stable, same, (isArrangement_arranged ys).stable]
  · intro places
    refine isArrangement_iff.1 ⟨(isArrangement_arranged xs).ordered, fun p => ?_⟩
    rw [(isArrangement_arranged xs).stable, places]

lemma ne_of_not_named {k : EventKey} (unnamed : ¬∃ c ∈ calls, c.1 = k) : ∀ c ∈ calls, c.1 ≠ k :=
  fun c hc hk => unnamed ⟨c, hc, hk⟩

namespace Alike

lemma get?_eq (alike : Alike calls calls') (h : EventHistory) (k : EventKey) :
    (h.extendAll calls).get? k.vault k.block = (h.extendAll calls').get? k.vault k.block := by
  by_cases named : ∃ c ∈ calls, c.1 = k
  · rw [get?_extendAll h calls named, get?_extendAll h calls' ((alike.named k).1 named)]
    refine congrArg some (arranged_eq_iff.2 fun p => ?_)
    rw [List.filter_append, List.filter_append, alike.places]
  · rw [get?_extendAll_of_not_named h calls (ne_of_not_named named),
      get?_extendAll_of_not_named h calls' (ne_of_not_named ((alike.named k).not.1 named))]

/-- From any history on, filings that are alike come to the same. -/
theorem extendAll_eq (alike : Alike calls calls') (h : EventHistory) :
    h.extendAll calls = h.extendAll calls' := by
  refine ext_get? (fun vault => Bool.eq_iff_iff.2 ?_) fun vault block =>
    alike.get?_eq h ⟨vault, block⟩
  have vaults {l l' : List (EventKey × List EventRecord)}
      (named : ∀ k, (∃ c ∈ l, c.1 = k) → ∃ c ∈ l', c.1 = k) :
      (∃ c ∈ l, c.1.vault = vault) → ∃ c ∈ l', c.1.vault = vault := by
    rintro ⟨c, hc, rfl⟩
    obtain ⟨d, hd, hk⟩ := named c.1 ⟨c, hc, rfl⟩
    exact ⟨d, hd, by rw [hk]⟩
  rw [isSome_vault?_extendAll, isSome_vault?_extendAll]
  exact or_congr_right
    ⟨vaults fun k => (alike.named k).1, vaults fun k => (alike.named k).2⟩

end Alike

/-- Filings that come to the same from nothing are alike, and so come to the same from any history
on. -/
theorem alike_iff : Alike calls calls' ↔ empty.extendAll calls = empty.extendAll calls' := by
  refine ⟨fun alike => alike.extendAll_eq empty, fun same => ?_⟩
  have named (k : EventKey) : (∃ c ∈ calls, c.1 = k) ↔ ∃ c ∈ calls', c.1 = k := by
    rw [← isSome_get?_extendAll_empty, same, isSome_get?_extendAll_empty]
  refine ⟨named, fun k p => ?_⟩
  by_cases hk : ∃ c ∈ calls, c.1 = k
  · have filed := get?_extendAll_empty calls hk
    rw [same, get?_extendAll_empty calls' ((named k).1 hk), Option.some.injEq] at filed
    exact (arranged_eq_iff.1 filed p).symm
  · rw [passed_eq_nil calls (ne_of_not_named hk),
      passed_eq_nil calls' (ne_of_not_named ((named k).not.1 hk))]

/-! ### Batches and orders -/

lemma alike_append (k : EventKey) (xs ys : List EventRecord) :
    Alike [(k, xs ++ ys)] [(k, xs), (k, ys)] := by
  refine ⟨by simp, fun i p => ?_⟩
  by_cases hk : k = i <;> simp [passed, hk]

lemma perm_passed (h : calls.Perm calls') (k : EventKey) :
    (passed calls k).Perm (passed calls' k) := (h.filter _).flatMap_right _

/-- Filings may change places where no two events that they bring for a key stand at one place. -/
lemma alike_of_perm (h : calls.Perm calls')
    (distinct : ∀ k, ((passed calls k).map EventRecord.position).Nodup) : Alike calls calls' := by
  refine ⟨fun k => by simp only [h.mem_iff], fun k p => ?_⟩
  have apart {l : List EventRecord} (hl : (l.map EventRecord.position).Nodup) :
      (l.filter (·.position = p)).Pairwise fun a b => a.position ≠ b.position :=
    (List.pairwise_map.1 hl).filter _
  have distinct' := ((perm_passed h k).map EventRecord.position).nodup_iff.1 (distinct k)
  -- at one place there is at most one event
  refine ((perm_passed h k).filter _).eq_of_pairwise ?_ (apart (distinct k)) (apart distinct')
  intro a b ha hb hab _
  simp only [List.mem_filter, decide_eq_true_eq] at ha hb
  exact absurd (ha.2.trans hb.2.symm) hab

/-- The events under a key stand at different places if they do so before they are arranged. -/
lemma nodup_positions_iff (h : EventHistory) {k : EventKey} (named : ∃ c ∈ calls, c.1 = k) :
    ((((h.extendAll calls).get? k.vault k.block).getD []).map EventRecord.position).Nodup ↔
      (((h.get? k.vault k.block).getD [] ++ passed calls k).map EventRecord.position).Nodup := by
  rw [get?_extendAll h calls named, Option.getD_some]
  exact ((List.mergeSort_perm _ EventRecord.notAfter).map EventRecord.position).nodup_iff

/-- The events that are brought for a key are among those that stand there in the end. -/
lemma nodup_passed (h : EventHistory)
    (distinct : ∀ c ∈ calls,
      ((((h.extendAll calls).get? c.1.vault c.1.block).getD []).map EventRecord.position).Nodup)
    (k : EventKey) : ((passed calls k).map EventRecord.position).Nodup := by
  by_cases named : ∃ c ∈ calls, c.1 = k
  · obtain ⟨c, hc, rfl⟩ := named
    have all := (nodup_positions_iff h ⟨c, hc, rfl⟩).1 (distinct c hc)
    rw [List.map_append] at all
    exact all.of_append_right
  · rw [passed_eq_nil calls (ne_of_not_named named)]
    exact List.nodup_nil

/-- From any history on, whatever the order of its events, a batch may be filed in parts; filings
may change places if in the end all events under each key that they name stand at different places;
and a filing changes nothing that stands under another vault or another block. -/
theorem filings_split_and_commute (h : EventHistory) :
    (∀ vault block xs ys, h.extendBlock vault block (xs ++ ys) =
      (h.extendBlock vault block xs).extendBlock vault block ys) ∧
    (∀ calls calls' : List (EventKey × List EventRecord), calls.Perm calls' →
      (∀ c ∈ calls, ((((h.extendAll calls).get? c.1.vault c.1.block).getD []).map
        EventRecord.position).Nodup) →
      h.extendAll calls = h.extendAll calls') ∧
    ∀ vault block records vault' block', vault ≠ vault' ∨ block ≠ block' →
      (h.extendBlock vault block records).get? vault' block' = h.get? vault' block' := by
  refine ⟨fun vault block xs ys => ?_, fun calls calls' perm distinct => ?_, ?_⟩
  · exact (alike_append ⟨vault, block⟩ xs ys).extendAll_eq h
  · exact (alike_of_perm perm (nodup_passed h distinct)).extendAll_eq h
  · intro vault block records vault' block' other
    have keys : (⟨vault, block⟩ : EventKey) ≠ ⟨vault', block'⟩ := by
      rintro ⟨⟩
      exact other.elim (· rfl) (· rfl)
    exact get?_extendBlock_ne h records keys

/-- Two events of a block were loaded out of order. Others of that block are filed between them and
in front of them, one is dropped as it is of another block than named, and all this may be done
backwards. -/
theorem filings_split_and_commute_of_disordered :
    let r (block tx : UInt64) : EventRecord := ⟨.managementFee, ⟨9⟩, block, tx, 0, 100⟩
    let h : EventHistory := ⟨.ofList [(⟨7⟩, .ofList [(5, [r 5 3, r 5 1])])]⟩
    let calls : List (EventKey × List EventRecord) :=
      [(⟨⟨7⟩, 5⟩, [r 5 2]), (⟨⟨7⟩, 6⟩, [r 5 9]), (⟨⟨7⟩, 5⟩, [r 5 0]), (⟨⟨8⟩, 5⟩, [r 5 4])]
    h.extendBlock ⟨7⟩ 5 ([r 5 2] ++ [r 5 0]) =
        (h.extendBlock ⟨7⟩ 5 [r 5 2]).extendBlock ⟨7⟩ 5 [r 5 0] ∧
      h.extendAll calls = h.extendAll calls.reverse ∧
      (h.extendAll calls).get? ⟨7⟩ 5 = some [r 5 0, r 5 1, r 5 2, r 5 3] ∧
      (h.extendBlock ⟨8⟩ 5 [r 5 4]).get? ⟨7⟩ 5 = some [r 5 3, r 5 1] := by
  intro r h calls
  obtain ⟨parts, orders, others⟩ := filings_split_and_commute h
  have stands : (h.get? ⟨7⟩ 5).getD [] ++ passed calls ⟨⟨7⟩, 5⟩ =
      [r 5 3, r 5 1, r 5 2, r 5 0] := rfl
  refine ⟨parts _ _ _ _, orders calls _ (List.reverse_perm _).symm ?_, ?_, ?_⟩
  · intro c hc
    rw [nodup_positions_iff h ⟨c, hc, rfl⟩]
    revert c
    decide +kernel
  · rw [get?_extendAll h calls (k := ⟨⟨7⟩, 5⟩) ⟨_, List.mem_cons_self, rfl⟩, stands]
    simp [arranged, List.mergeSort, List.MergeSort.Internal.splitInTwo, EventRecord.notAfter, r]
  · exact others ⟨8⟩ 5 _ ⟨7⟩ 5 (.inl (by decide))

end VaultIndex.EventHistory
