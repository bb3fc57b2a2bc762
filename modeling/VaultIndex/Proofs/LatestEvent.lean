import VaultIndex.Proofs.Histories

/-!
# The last event up to a block

A look-up goes to the last block up to the bound under which anything was filed, and takes the last
event there. What it finds is the last event of all. It finds nothing, though, where that block
holds no event, and then earlier events stay hidden: the look-up is right exactly if some event
stands under the last block that was named.
-/

namespace VaultIndex

/-- An event was emitted no later than another one: in an earlier block, or no later in the same. -/
def EventRecord.NoLater (a b : EventRecord) : Prop :=
  a.block < b.block ∨ a.block = b.block ∧ a.notAfter b = true

namespace EventHistory

/-- An event is filed for a vault under some block up to a bound. -/
def FiledUpTo (h : EventHistory) (vault : Address) (bound : UInt64) (r : EventRecord) : Prop :=
  ∃ block ≤ bound, ∃ records, h.get? vault block = some records ∧ r ∈ records

/-- What there is to answer about the last event of a vault up to a bound: an event filed there than
which no other is later, or nothing where no event is filed. -/
def AnswersLatest (h : EventHistory) (vault : Address) (bound : UInt64) :
    Option EventRecord → Prop
  | some r => h.FiledUpTo vault bound r ∧ ∀ s, h.FiledUpTo vault bound s → s.NoLater r
  | none => ∀ r, ¬h.FiledUpTo vault bound r

/-- The events under a block are events of that block in the order of the chain. -/
structure Tidy (h : EventHistory) : Prop where
  block_eq : ∀ {vault block records}, h.get? vault block = some records →
    ∀ r ∈ records, r.block = block
  ordered : ∀ {vault block records}, h.get? vault block = some records →
    records.Pairwise fun a b => a.notAfter b = true

theorem tidy_extendAll_empty (calls : List (EventKey × List EventRecord)) :
    (empty.extendAll calls).Tidy := by
  have filed : ∀ {vault block records}, (empty.extendAll calls).get? vault block = some records →
      records = arranged (passed calls ⟨vault, block⟩) := by
    intro vault block records hr
    have named := (isSome_get?_extendAll_empty calls ⟨vault, block⟩).1 (by simp [hr])
    have hg := get?_extendAll_empty calls named
    rw [hr] at hg
    exact Option.some.inj hg
  constructor
  · intro vault block records hr r hmem
    rw [filed hr, mem_arranged] at hmem
    exact block_of_mem_passed calls hmem
  · intro vault block records hr
    rw [filed hr]
    exact (isArrangement_arranged _).ordered

/-! ### What a look-up does -/

/-- Either no block up to the bound is known, or the last known one is looked at. -/
theorem latestAt?_cases (h : EventHistory) (vault : Address) (bound : UInt64) :
    ((∀ block ≤ bound, h.get? vault block = none) ∧ h.latestAt? vault bound = none) ∨
      ∃ last records, h.get? vault last = some records ∧ last ≤ bound ∧
        (∀ block ≤ bound, (h.get? vault block).isSome = true → block ≤ last) ∧
        h.latestAt? vault bound = records.getLast? := by
  cases hv : h.vault? vault with
  | none => exact .inl ⟨by simp [get?, hv], by simp [latestAt?, hv]⟩
  | some blocks =>
    cases hb : blocks.atOrBelow? bound with
    | none =>
      refine .inl ⟨fun block hle => ?_, by simp [latestAt?, hv, hb]⟩
      have beyond := Table.atOrBelow?_eq_none_iff.1 hb block
      rw [get?, hv, Option.bind_some]
      by_contra hne
      exact absurd (beyond (Option.isSome_iff_ne_none.2 hne))
        (Nat.not_lt.2 (UInt64.le_iff_toNat_le.1 hle))
    | some e =>
      obtain ⟨last, records⟩ := e
      obtain ⟨hget, hle, hmax⟩ := Table.atOrBelow?_eq_some_iff.1 hb
      refine .inr ⟨last, records, by simp [get?, hv, hget], UInt64.le_iff_toNat_le.2 hle, ?_,
        by simp [latestAt?, hv, hb]⟩
      intro block hblock hs
      rw [get?, hv, Option.bind_some] at hs
      exact UInt64.le_iff_toNat_le.2 (hmax block hs (UInt64.le_iff_toNat_le.1 hblock))

/-- No event stands behind the last one of an ordered list. -/
lemma notAfter_of_getLast? {records : List EventRecord} {r s : EventRecord}
    (ho : records.Pairwise fun a b => a.notAfter b = true) (hr : records.getLast? = some r)
    (hs : s ∈ records) : s.notAfter r = true := by
  obtain ⟨before, rfl⟩ := List.getLast?_eq_some_iff.1 hr
  rcases List.mem_append.1 hs with hs | hs
  · exact (List.pairwise_append.1 ho).2.2 s hs r (by simp)
  · rw [List.mem_singleton.1 hs]
    exact EventRecord.notAfter_of_position_eq rfl

/-- An event that a look-up finds is the last one that is filed up to the bound. -/
theorem Tidy.answersLatest {h : EventHistory} (tidy : h.Tidy) {vault : Address} {bound : UInt64}
    {r : EventRecord} (hr : h.latestAt? vault bound = some r) :
    h.AnswersLatest vault bound (some r) := by
  rcases h.latestAt?_cases vault bound with ⟨-, hnone⟩ | ⟨last, records, hget, hle, hmax, hlast⟩
  · rw [hnone] at hr
    cases hr
  · rw [hlast] at hr
    have hmem : r ∈ records := List.mem_of_getLast? hr
    refine ⟨⟨last, hle, records, hget, hmem⟩, ?_⟩
    rintro s ⟨block, hblock, others, hothers, hs⟩
    rw [EventRecord.NoLater, tidy.block_eq hothers s hs, tidy.block_eq hget r hmem]
    have hb : block ≤ last := hmax block hblock (by simp [hothers])
    rcases UInt64.lt_or_eq_of_le hb with hlt | rfl
    · exact .inl hlt
    · rw [hget] at hothers
      cases hothers
      exact .inr ⟨rfl, notAfter_of_getLast? (tidy.ordered hget) hr hs⟩

/-- A look-up finds nothing exactly if a later block up to the bound was named than that of any
event filed there. -/
theorem latestAt?_extendAll_eq_none_iff (calls : List (EventKey × List EventRecord))
    (vault : Address) (bound : UInt64) :
    (empty.extendAll calls).latestAt? vault bound = none ↔
      ∀ r, (empty.extendAll calls).FiledUpTo vault bound r →
        ∃ c ∈ calls, c.1.vault = vault ∧ r.block < c.1.block ∧ c.1.block ≤ bound := by
  have tidy := tidy_extendAll_empty calls
  have named := isSome_get?_extendAll_empty calls
  generalize empty.extendAll calls = h at tidy named
  rcases h.latestAt?_cases vault bound with ⟨hno, hnone⟩ | ⟨last, records, hget, hle, hmax, hlast⟩
  · refine iff_of_true hnone ?_
    rintro r ⟨block, hblock, records, hr, -⟩
    rw [hno block hblock] at hr
    cases hr
  · rw [hlast, List.getLast?_eq_none_iff]
    constructor
    · rintro rfl r ⟨block, hblock, others, hothers, hr⟩
      obtain ⟨c, hc, hck⟩ := (named ⟨vault, last⟩).1 (by simp [hget])
      have hne : block ≠ last := by
        rintro rfl
        rw [hget] at hothers
        cases hothers
        cases hr
      refine ⟨c, hc, by rw [hck], ?_, by rw [hck]; exact hle⟩
      rw [hck, tidy.block_eq hothers r hr]
      exact UInt64.lt_of_le_of_ne (hmax block hblock (by simp [hothers])) hne
    · intro later
      refine List.eq_nil_iff_forall_not_mem.2 fun r hr => ?_
      obtain ⟨c, hc, hcv, hlt, hcb⟩ := later r ⟨last, hle, records, hget, hr⟩
      rw [tidy.block_eq hget r hr] at hlt
      subst hcv
      exact absurd (hmax c.1.block hcb ((named c.1).2 ⟨c, hc, rfl⟩)) (UInt64.not_le.2 hlt)

/-- What a look-up finds is always the last event up to the bound, and the look-up is right exactly
if there is none or if no later block up to the bound was ever named. -/
theorem latestAt?_right_iff (calls : List (EventKey × List EventRecord)) (vault : Address)
    (bound : UInt64) :
    (∀ r, (empty.extendAll calls).latestAt? vault bound = some r →
        (empty.extendAll calls).AnswersLatest vault bound (some r)) ∧
      ((empty.extendAll calls).AnswersLatest vault bound
          ((empty.extendAll calls).latestAt? vault bound) ↔
        (∀ r, ¬(empty.extendAll calls).FiledUpTo vault bound r) ∨
          ∃ r, (empty.extendAll calls).FiledUpTo vault bound r ∧
            ∀ c ∈ calls, c.1.vault = vault → c.1.block ≤ bound → c.1.block ≤ r.block) := by
  have tidy := tidy_extendAll_empty calls
  refine ⟨fun r hr => tidy.answersLatest hr, ?_⟩
  have hnone := latestAt?_extendAll_eq_none_iff calls vault bound
  constructor
  · intro right
    cases hl : (empty.extendAll calls).latestAt? vault bound with
    | none =>
      rw [hl] at right
      exact .inl right
    | some r =>
      -- were a later block named for every event, nothing would have been found
      refine .inr (by_contra fun hidden => ?_)
      push Not at hidden
      rw [hnone.2 fun r hr => ?_] at hl
      · cases hl
      · obtain ⟨c, hc, hv, hb, hlt⟩ := hidden r hr
        exact ⟨c, hc, hv, UInt64.not_le.1 hlt, hb⟩
  · rintro (none | ⟨r, hr, hmax⟩)
    · rw [hnone.2 fun r hr => absurd hr (none r)]
      exact none
    · cases hl : (empty.extendAll calls).latestAt? vault bound with
      | none =>
        obtain ⟨c, hc, hv, hlt, hb⟩ := hnone.1 hl r hr
        exact absurd (hmax c hc hv hb) (UInt64.not_le.2 hlt)
      | some s => exact tidy.answersLatest hl

/-- Naming a new block without an event hides all events of earlier blocks from a look-up there. -/
theorem latestAt?_extendBlock_nil {h : EventHistory} {vault : Address} {block : UInt64}
    (hb : h.get? vault block = none) :
    (h.extendBlock vault block []).latestAt? vault block = none := by
  have named : (h.extendBlock vault block []).get? vault block = some [] := by
    simp [get?_extendBlock_self, hb, extended]
  rcases latestAt?_cases (h.extendBlock vault block []) vault block with
    ⟨-, hnone⟩ | ⟨last, records, hget, hle, hmax, hlast⟩
  · exact hnone
  · obtain rfl : last = block := UInt64.le_antisymm hle (hmax block UInt64.le_rfl (by simp [named]))
    rw [named] at hget
    cases hget
    exact hlast

/-- A fee that was filed under block 10 is not found at block 20 once block 20 was named without an
event. -/
theorem latestAt?_misses_filed_event :
    let r : EventRecord := ⟨.managementFee, ⟨0⟩, 10, 0, 0, 100⟩
    let h := (empty.extendBlock .zero 10 [r]).extendBlock .zero 20 []
    ¬h.AnswersLatest .zero 20 (h.latestAt? .zero 20) := by
  intro r h
  have elsewhere : (⟨.zero, 10⟩ : EventKey) ≠ ⟨.zero, 20⟩ := by decide
  have filed : h.FiledUpTo .zero 20 r := by
    refine ⟨10, by decide, [r], ?_, List.mem_singleton.2 rfl⟩
    rw [get?_extendBlock_ne _ _ elsewhere.symm, get?_extendBlock_self]
    simp [extended, arranged, r]
  have hidden : h.latestAt? .zero 20 = none :=
    latestAt?_extendBlock_nil (get?_extendBlock_ne _ _ elsewhere)
  rw [hidden]
  exact fun none => none r filed

end EventHistory

end VaultIndex
