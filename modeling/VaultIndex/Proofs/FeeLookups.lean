import VaultIndex.Proofs.HarvestOutcomes
import VaultIndex.Proofs.LatestEvent

/-!
# Fees at a block

A harvest leaves no block without events, so that a look-up in its history always finds the last
event of a vault up to the bound (`IsHarvest.answersFees`). Which event that is can be told from the
vault's stream alone, in whatever order it brings the events.
-/

namespace VaultIndex

/-- A record is the last one up to a bound: it is of a block no later than the bound, no record up
to there is later, and none of those that are as late follows it in the list. -/
def IsLatestOf (records : List EventRecord) (bound : UInt64) (r : EventRecord) : Prop :=
  r.block ≤ bound ∧ ∃ earlier later, records = earlier ++ r :: later ∧
    (∀ s ∈ earlier, s.block ≤ bound → s.NoLater r) ∧
    ∀ s ∈ later, s.block ≤ bound → ¬r.NoLater s

namespace EventRecord

/-- Of two records neither of which is later than the other, both are at one place. -/
lemma NoLater.place_eq {r s : EventRecord} (hrs : r.NoLater s) (hsr : s.NoLater r) :
    r.block = s.block ∧ r.position = s.position := by
  rcases hrs with hlt | ⟨hb, hrs⟩
  · rcases hsr with hgt | ⟨hb, -⟩
    · exact absurd hgt (UInt64.lt_asymm hlt)
    · rw [hb] at hlt
      exact absurd hlt (UInt64.lt_irrefl _)
  · rcases hsr with hlt | ⟨-, hsr⟩
    · rw [hb] at hlt
      exact absurd hlt (UInt64.lt_irrefl _)
    · exact ⟨hb, position_eq_of_notAfter hrs hsr⟩

end EventRecord

/-- The last of those members of a list that have a property has none of them behind it. -/
lemma exists_split_of_getLast?_filter {α : Type} {p : α → Bool} {l : List α} {a : α}
    (h : (l.filter p).getLast? = some a) :
    ∃ earlier later, l = earlier ++ a :: later ∧ ∀ x ∈ later, p x = false := by
  obtain ⟨front, hf⟩ := List.getLast?_eq_some_iff.1 h
  obtain ⟨l₁, l₂, rfl, -, h₂⟩ := List.filter_eq_append_iff.1 hf
  obtain ⟨m₁, m₂, rfl, -, -, hm⟩ := List.filter_eq_cons_iff.1 h₂
  refine ⟨l₁ ++ m₁, m₂, by simp, ?_⟩
  simpa [List.filter_eq_nil_iff] using hm

namespace IsLatestOf

variable {records : List EventRecord} {bound : UInt64} {r s : EventRecord}

lemma mem (h : IsLatestOf records bound r) : r ∈ records := by
  obtain ⟨-, earlier, later, rfl, -, -⟩ := h
  simp

/-- There is one last record. -/
lemma unique (hr : IsLatestOf records bound r) (hs : IsLatestOf records bound s) : r = s := by
  obtain ⟨hrb, earlier, later, rfl, hearlier, hlater⟩ := hr
  obtain ⟨hsb, earlier', later', heq, hearlier', hlater'⟩ := hs
  -- were they apart, the one that comes first would and would not be earlier than the other
  rcases List.append_eq_append_iff.1 heq with ⟨between, rfl, hs⟩ | ⟨between, rfl, hr⟩
  · cases between with
    | nil => exact (List.cons.inj hs).1
    | cons x between =>
      obtain ⟨rfl, rfl⟩ := List.cons.inj hs
      exact absurd (hearlier' r (by simp) hrb) (hlater s (by simp) hsb)
  · cases between with
    | nil => exact (List.cons.inj hr).1.symm
    | cons x between =>
      obtain ⟨rfl, rfl⟩ := List.cons.inj hr
      exact absurd (hearlier s (by simp) hsb) (hlater' r (by simp) hrb)

/-- Between two events nothing changes. -/
lemma of_quiet {bound' : UInt64} (quiet : ∀ s ∈ records, s.block ≤ bound ↔ s.block ≤ bound')
    (h : IsLatestOf records bound r) : IsLatestOf records bound' r := by
  have hmem := h.mem
  obtain ⟨hb, earlier, later, rfl, hearlier, hlater⟩ := h
  refine ⟨(quiet r hmem).1 hb, earlier, later, rfl, ?_, ?_⟩
  · intro s hs hsb
    exact hearlier s hs ((quiet s (by simp [hs])).2 hsb)
  · intro s hs hsb
    exact hlater s hs ((quiet s (by simp [hs])).2 hsb)

end IsLatestOf

namespace Harvest

variable {chain : ChainId} {kind : EventKind} {range : Range}
  {stream : EventFilter → List StreamItem} {vaults : Table Address Vault} {history : EventHistory}

/-! ### What look-ups find -/

section Vault

variable {address : Address} {v : Vault} {bound : UInt64}

/-- The records that a stream gives for a vault. -/
def emitted (kind : EventKind) (range : Range) (stream : EventFilter → List StreamItem)
    (address : Address) (v : Vault) : List EventRecord :=
  recordsIn kind (stream (filterOf kind range address v))

variable (h : IsHarvest chain kind range stream vaults history)
  (hv : vaults.get? address = some v) (hc : v.chainId = chain)

include h hv hc

lemma IsHarvest.isLatestOf {r : EventRecord} (hr : history.latestAt? address bound = some r) :
    IsLatestOf (emitted kind range stream address v) bound r := by
  rcases history.latestAt?_cases address bound with
    ⟨-, hnone⟩ | ⟨last, records, hget, hle, hmax, hlast⟩
  · rw [hnone] at hr
    cases hr
  rw [hlast] at hr
  have arrangement := h.arranged hv hc hget
  have mem_records (s : EventRecord) :
      s ∈ records ↔ s ∈ emitted kind range stream address v ∧ s.block = last := by
    rw [arrangement.mem_iff, List.mem_filter, decide_eq_true_iff]
    rfl
  have hmem := (mem_records r).1 (List.mem_of_getLast? hr)
  have noLater : ∀ s ∈ emitted kind range stream address v, s.block ≤ bound → s.NoLater r := by
    intro s hs hsb
    have known : s.block ≤ last := hmax s.block hsb ((h.block_iff hv hc _).2 ⟨s, hs, rfl⟩)
    rw [EventRecord.NoLater, hmem.2]
    rcases UInt64.lt_or_eq_of_le known with hlt | heq
    · exact .inl hlt
    · have hs := (mem_records s).2 ⟨hs, heq⟩
      exact .inr ⟨heq, EventHistory.notAfter_of_getLast? arrangement.ordered hr hs⟩
  -- events at one place keep the order of the stream, so that the last of them is the last there
  have lastThere := arrangement.getLast?_filter_position hr
  rw [List.filter_filter, ← emitted] at lastThere
  obtain ⟨earlier, later, split, apart⟩ := exists_split_of_getLast?_filter lastThere
  refine ⟨hmem.2 ▸ hle, earlier, later, split, ?_, ?_⟩
  · intro s hs
    exact noLater s (split ▸ List.mem_append_left _ hs)
  · intro s hs hsb hrs
    have hsr := noLater s (split ▸ List.mem_append_right _ (List.mem_cons_of_mem _ hs)) hsb
    obtain ⟨hb, hp⟩ := hrs.place_eq hsr
    have elsewhere := apart s hs
    rw [← hp, ← hb, hmem.2] at elsewhere
    simp at elsewhere

lemma IsHarvest.lt_of_latestAt?_eq_none (hnone : history.latestAt? address bound = none) :
    ∀ r ∈ emitted kind range stream address v, bound < r.block := by
  intro r hr
  have known := (h.block_iff hv hc r.block).2 ⟨r, hr, rfl⟩
  rcases history.latestAt?_cases address bound with ⟨hno, -⟩ | ⟨last, records, hget, -, -, hlast⟩
  · by_contra hle
    rw [hno r.block (UInt64.not_lt.1 hle)] at known
    cases known
  -- no block is without events
  · rw [hnone, eq_comm, List.getLast?_eq_none_iff] at hlast
    subst hlast
    obtain ⟨s, hs, hb⟩ := (h.block_iff hv hc last).1 (by simp [hget])
    have hmem := ((h.arranged hv hc hget).mem_iff s).2 (List.mem_filter.2 ⟨hs, decide_eq_true hb⟩)
    cases hmem

end Vault

/-- What look-ups in a history find is what the streams of the vaults of a chain tell: for each of
these vaults the last of its records up to the bound, and nothing for any other address. -/
structure AnswersFees (chain : ChainId) (kind : EventKind) (range : Range)
    (stream : EventFilter → List StreamItem) (vaults : Table Address Vault)
    (history : EventHistory) : Prop where
  some_iff : ∀ {address v}, vaults.get? address = some v → v.chainId = chain → ∀ bound r,
    history.latestAt? address bound = some r ↔
      IsLatestOf (emitted kind range stream address v) bound r
  none_iff : ∀ {address v}, vaults.get? address = some v → v.chainId = chain → ∀ bound,
    history.latestAt? address bound = none ↔
      ∀ r ∈ emitted kind range stream address v, bound < r.block
  constant : ∀ {address v}, vaults.get? address = some v → v.chainId = chain → ∀ {b b'}, b ≤ b' →
    (∀ r ∈ emitted kind range stream address v, ¬(b < r.block ∧ r.block ≤ b')) →
      history.latestAt? address b = history.latestAt? address b'
  foreign : ∀ address, (¬∃ v, vaults.get? address = some v ∧ v.chainId = chain) →
    ∀ bound, history.latestAt? address bound = none

lemma IsHarvest.answersFees (h : IsHarvest chain kind range stream vaults history) :
    AnswersFees chain kind range stream vaults history := by
  have some_iff {address : Address} {v : Vault} (hv : vaults.get? address = some v)
      (hc : v.chainId = chain) (bound : UInt64) (r : EventRecord) :
      history.latestAt? address bound = some r ↔
        IsLatestOf (emitted kind range stream address v) bound r := by
    constructor
    · exact h.isLatestOf hv hc
    · intro hr
      cases found : history.latestAt? address bound with
      | none =>
        have beyond := h.lt_of_latestAt?_eq_none hv hc found r hr.mem
        exact absurd hr.1 (UInt64.not_le.2 beyond)
      | some s => rw [(h.isLatestOf hv hc found).unique hr]
  constructor
  · exact some_iff
  · intro address v hv hc bound
    constructor
    · exact h.lt_of_latestAt?_eq_none hv hc
    · intro beyond
      apply Option.eq_none_iff_forall_ne_some.2
      intro r hr
      have found := h.isLatestOf hv hc hr
      exact absurd found.1 (UInt64.not_le.2 (beyond r found.mem))
  · intro address v hv hc b b' hle quiet
    have same : ∀ s ∈ emitted kind range stream address v, s.block ≤ b ↔ s.block ≤ b' := by
      intro s hs
      constructor
      · intro hb
        exact UInt64.le_trans hb hle
      · intro hb
        exact UInt64.not_lt.1 fun hlt => quiet s hs ⟨hlt, hb⟩
    ext r
    rw [some_iff hv hc, some_iff hv hc]
    exact ⟨.of_quiet same, .of_quiet fun s hs => (same s hs).symm⟩
  · intro address foreign bound
    have unknown : history.vault? address = none := by
      rw [← Option.not_isSome_iff_eq_none, h.vault_iff]
      rintro ⟨v, hv, hc, -⟩
      exact foreign ⟨v, hv, hc⟩
    rw [EventHistory.latestAt?, unknown]
    rfl

/-- However a harvest goes on, and also where one vault is asked after the other, a look-up in its
history finds the last record of a vault up to the bound, and nothing if there is none. -/
theorem latestAt?_of_harvest {source : ChainSource Id} {events : EventSource Id}
    (hs : source.eventSource chain = pure (.ok events)) (kind : EventKind) (range : Range)
    (vaults : Table Address Vault) (before : Tally) :
    AnswersFees chain kind range events vaults (harvest source chain kind range vaults before).1 ∧
    ∀ maxConcurrency history after,
      Outcome source chain kind range maxConcurrency vaults before history after →
        AnswersFees chain kind range events vaults history := by
  constructor
  · exact (isHarvest_harvest hs before).answersFees
  · intro maxConcurrency history after h
    exact (h.isHarvest hs).answersFees

/-- A stream brings two events at one place, an earlier one and two that are no records, and breaks
down. The second of the two counts from its block on, the earlier one before. -/
theorem latestAt?_of_disordered_stream :
    let event (block index : UInt64) (fee : U256) : StreamItem :=
      .event ⟨some block, some ⟨7⟩, some index, some 0, fee⟩
    let record (block index : UInt64) (fee : U256) : EventRecord :=
      ⟨.managementFee, ⟨7⟩, block, index, 0, fee⟩
    let events : EventSource Id := fun _ =>
      [event 10 1 300, event 5 9 100, .failure (.decode "no event"), event 10 1 200, event 10 0 50,
        .event ⟨none, none, none, none, 1⟩, .breakdown, event 11 0 400]
    let source : ChainSource Id :=
      ⟨fun _ => .ok events, fun chain _ => .error (.unknownChain chain)⟩
    let vaults : Table Address Vault := .ofList [(⟨1⟩, .new 1 ⟨1⟩ "3.0.0")]
    ∃ history after, Outcome source 1 .managementFee {} 2 vaults {} history after ∧
      history.latestAt? ⟨1⟩ 11 = some (record 10 1 200) ∧
      history.latestAt? ⟨1⟩ 9 = some (record 5 9 100) ∧
      history.latestAt? ⟨1⟩ 4 = none := by
  intro event record events source vaults
  have had : source.eventSource 1 = pure (.ok events) := rfl
  obtain ⟨history, after, outcome⟩ := exists_outcome source 1 .managementFee {} 2 vaults {}
  have answers := (latestAt?_of_harvest had .managementFee {} vaults {}).2 _ _ _ outcome
  have counts : vaults.get? ⟨1⟩ = some (.new 1 ⟨1⟩ "3.0.0") := rfl
  have records : emitted .managementFee {} events ⟨1⟩ (.new 1 ⟨1⟩ "3.0.0") =
      [record 10 1 300, record 5 9 100, record 10 1 200, record 10 0 50] := rfl
  refine ⟨history, after, outcome, ?_, ?_, ?_⟩
  · rw [answers.some_iff counts rfl, records]
    refine ⟨by decide, [record 10 1 300, record 5 9 100], [record 10 0 50], rfl, ?_, ?_⟩
    · simp [EventRecord.NoLater, EventRecord.notAfter, record]
    · simp [EventRecord.NoLater, EventRecord.notAfter, record]
  · rw [answers.some_iff counts rfl, records]
    refine ⟨by decide, [record 10 1 300], [record 10 1 200, record 10 0 50], rfl, ?_, ?_⟩
    · simp [EventRecord.NoLater, EventRecord.notAfter, record]
    · simp [EventRecord.NoLater, EventRecord.notAfter, record]
  · rw [answers.none_iff counts rfl, records]
    simp [record]

end Harvest

end VaultIndex
