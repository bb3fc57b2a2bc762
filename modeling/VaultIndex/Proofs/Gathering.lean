import VaultIndex.Harvest.Basic
import VaultIndex.Proofs.Histories

/-!
# What is gathered from streams

A stream adds the records of its located events, up to where it breaks down, each under its vault
and block (`Gathered.Holds.takeAll`). A table of gathered records has no key without records, so the
history that is made of it has a block exactly for every key that received one, in whatever order
the keys are filed (`Gathered.Holds.get?_filed`).
-/

namespace VaultIndex

/-! ### The records of a stream -/

/-- The record that an item makes; only an event whose place is fully known makes one. -/
def StreamItem.record? (kind : EventKind) : StreamItem → Option EventRecord
  | .event ⟨some block, some txHash, some txIndex, some logIndex, value⟩ =>
    some ⟨kind, txHash, block, txIndex, logIndex, value⟩
  | _ => none

/-- The records of a stream, up to where it breaks down. -/
def recordsIn (kind : EventKind) (items : List StreamItem) : List EventRecord :=
  (items.takeWhile (· ≠ .breakdown)).filterMap (StreamItem.record? kind)

section Records

variable {kind : EventKind} {item : StreamItem} {r : EventRecord}

lemma RawEvent.located?_eq_record? (e : RawEvent) :
    e.located? kind = (StreamItem.event e).record? kind := by
  obtain ⟨block, txHash, txIndex, logIndex, value⟩ := e
  cases block <;> cases txHash <;> cases txIndex <;> cases logIndex <;> rfl

/-- An item is stored as the record that it makes. -/
theorem StreamItem.fate_eq_stored_iff :
    item.fate kind = .stored r ↔ item.record? kind = some r := by
  cases item with
  | event e =>
    rw [fate, ← RawEvent.located?_eq_record?]
    cases e.located? kind <;> simp
  | failure cause => simp [fate, record?]
  | breakdown => simp [fate, record?]

lemma StreamItem.record?_eq_none (h : ∀ r, item.fate kind ≠ .stored r) :
    item.record? kind = none := by
  apply Option.eq_none_iff_forall_ne_some.2
  intro r hr
  exact h r (fate_eq_stored_iff.2 hr)

@[simp] lemma recordsIn_nil : recordsIn kind [] = [] := rfl

@[simp] lemma recordsIn_breakdown (rest : List StreamItem) :
    recordsIn kind (.breakdown :: rest) = [] := by simp [recordsIn]

lemma recordsIn_cons (rest : List StreamItem) (hi : item ≠ .breakdown) :
    recordsIn kind (item :: rest) = (item.record? kind).toList ++ recordsIn kind rest := by
  cases h : item.record? kind <;> simp [recordsIn, hi, h]

end Records

/-! ### Gathered records -/

/-- The part of some records that belongs under a key, when all of them are of one vault. -/
def under (vault : Address) (records : List EventRecord) (k : EventKey) : List EventRecord :=
  if vault = k.vault then records.filter (·.block = k.block) else []

section Under

variable (vault : Address) (records more : List EventRecord) (k : EventKey)

@[simp] lemma under_nil : under vault [] k = [] := by simp [under]

lemma under_append :
    under vault (records ++ more) k = under vault records k ++ under vault more k := by
  by_cases h : vault = k.vault <;> simp [under, h]

lemma under_self (block : UInt64) :
    under vault records ⟨vault, block⟩ = records.filter (·.block = block) := by simp [under]

lemma under_of_ne (h : vault ≠ k.vault) : under vault records k = [] := by simp [under, h]

variable {records k} in
lemma block_of_mem_under {vault : Address} {r : EventRecord} (h : r ∈ under vault records k) :
    r.block = k.block := by
  by_cases hv : vault = k.vault <;> simp [under, hv] at h
  exact h.2

end Under

namespace Gathered

/-- Gathers some records of a vault, one after the other. -/
def pushAll (g : Gathered) (vault : Address) (records : List EventRecord) : Gathered :=
  records.foldl (·.push vault ·) g

section Push

variable (g : Gathered) (vault : Address) (records more : List EventRecord) (k : EventKey)

lemma pushAll_append :
    g.pushAll vault (records ++ more) = (g.pushAll vault records).pushAll vault more :=
  List.foldl_append

lemma get?_push (r : EventRecord) :
    (g.push vault r).get? k =
      if under vault [r] k = [] then g.get? k
      else some ((g.get? k).getD [] ++ under vault [r] k) := by
  by_cases hk : (⟨vault, r.block⟩ : EventKey) = k
  · subst hk
    simp [push, under]
  · have elsewhere : under vault [r] k = [] := by
      obtain ⟨vault', block⟩ := k
      simpa [under] using hk
    rw [if_pos elsewhere, push, Table.get?_update_ne _ _ hk]

/-- Pushed records come behind those that are there, each under its own key. -/
theorem get?_pushAll :
    (g.pushAll vault records).get? k =
      if under vault records k = [] then g.get? k
      else some ((g.get? k).getD [] ++ under vault records k) := by
  induction records generalizing g with
  | nil => simp [pushAll]
  | cons r rest ih =>
    have step : g.pushAll vault (r :: rest) = (g.push vault r).pushAll vault rest := rfl
    have parts : under vault (r :: rest) k = under vault [r] k ++ under vault rest k :=
      under_append vault [r] rest k
    rw [step, ih, get?_push, parts]
    by_cases first : under vault [r] k = [] <;>
      by_cases later : under vault rest k = [] <;> simp [first, later]

end Push

end Gathered

namespace Intake

variable {chain : ChainId} {filter : EventFilter} (x : Intake)

lemma takeAll_cons {item : StreamItem} (rest : List StreamItem) (hi : item ≠ .breakdown) :
    x.takeAll chain filter (item :: rest) =
      (x.take chain filter item).takeAll chain filter rest := by
  cases item with
  | event e => rfl
  | failure cause => rfl
  | breakdown => exact absurd rfl hi

lemma gathered_take (item : StreamItem) :
    (x.take chain filter item).gathered =
      x.gathered.pushAll filter.address (item.record? filter.kind).toList := by
  cases hf : item.fate filter.kind with
  | stored r =>
    rw [take, hf, StreamItem.fate_eq_stored_iff.1 hf]
    rfl
  | failed | unlocated | fatal =>
    have none : item.record? filter.kind = none := StreamItem.record?_eq_none (by simp [hf])
    rw [take, hf, none]
    rfl

/-- The records of a stream are gathered in its order, and nothing else is. -/
theorem gathered_takeAll (items : List StreamItem) :
    (x.takeAll chain filter items).gathered =
      x.gathered.pushAll filter.address (recordsIn filter.kind items) := by
  induction items generalizing x with
  | nil => rfl
  | cons item rest ih =>
    by_cases hi : item = .breakdown
    · rw [hi, recordsIn_breakdown]
      rfl
    · rw [takeAll_cons x rest hi, ih, gathered_take, recordsIn_cons rest hi,
        Gathered.pushAll_append]

end Intake

namespace Gathered

variable {g : Gathered} {c : EventKey → List EventRecord}

/-- A table of gathered records has exactly these records under each key, and no key without any. -/
def Holds (g : Gathered) (c : EventKey → List EventRecord) : Prop :=
  ∀ k, g.get? k = if c k = [] then none else some (c k)

namespace Holds

lemma empty : Holds ∅ fun _ => [] := fun _ => rfl

lemma congr (h : g.Holds c) {d : EventKey → List EventRecord} (hcd : ∀ k, c k = d k) :
    g.Holds d := fun k => by rw [h k, hcd k]

/-- What a table holds determines it. -/
theorem unique {g' : Gathered} (h : g.Holds c) (h' : g'.Holds c) : g = g' :=
  Table.ext_get? fun k => by rw [h k, h' k]

lemma getD (h : g.Holds c) (k : EventKey) : (g.get? k).getD [] = c k := by
  rw [h k]
  split
  · next hk => rw [hk, Option.getD_none]
  · rfl

/-- Pushed records come last, each under its own key. -/
theorem pushAll (h : g.Holds c) (vault : Address) (records : List EventRecord) :
    (g.pushAll vault records).Holds fun k => c k ++ under vault records k := by
  intro k
  rw [get?_pushAll, h.getD, h k]
  by_cases pushed : under vault records k = [] <;> simp [pushed]

variable {chain : ChainId} {filter : EventFilter} {x : Intake}

theorem take (h : x.gathered.Holds c) (item : StreamItem) :
    (x.take chain filter item).gathered.Holds fun k =>
      c k ++ under filter.address (item.record? filter.kind).toList k := by
  rw [Intake.gathered_take]
  exact h.pushAll filter.address _

/-- A stream that is taken in adds its records, each under its block. -/
theorem takeAll (h : x.gathered.Holds c) (items : List StreamItem) :
    (x.takeAll chain filter items).gathered.Holds fun k =>
      c k ++ under filter.address (recordsIn filter.kind items) k := by
  rw [Intake.gathered_takeAll]
  exact h.pushAll filter.address _

end Holds

/-! ### The history of gathered records -/

lemma filed_eq_extendAll (entries : List (EventKey × List EventRecord)) :
    filed entries = EventHistory.empty.extendAll entries := rfl

namespace Holds

variable {entries : List (EventKey × List EventRecord)}

lemma named_iff (h : g.Holds c) (he : entries.Perm g.entries) (k : EventKey) :
    (∃ e ∈ entries, e.1 = k) ↔ c k ≠ [] := by
  have hs : (∃ e ∈ entries, e.1 = k) ↔ (g.get? k).isSome = true := by
    rw [Table.isSome_get?_iff]
    constructor
    · rintro ⟨⟨_, records⟩, hmem, rfl⟩
      exact ⟨records, he.mem_iff.1 hmem⟩
    · rintro ⟨records, hmem⟩
      exact ⟨_, he.mem_iff.2 hmem, rfl⟩
  rw [hs, h k]
  by_cases hk : c k = [] <;> simp [hk]

/-- A key is filed once, with all that is held under it. -/
lemma passed_eq (h : g.Holds c) (he : entries.Perm g.entries)
    (hc : ∀ k, ∀ r ∈ c k, r.block = k.block) (k : EventKey) :
    EventHistory.passed entries k = c k := by
  have once : (entries.filter (·.1 = k)).Perm ((g.get? k).map (k, ·)).toList := by
    rw [← Table.filter_key]
    exact he.filter _
  have whole : (c k).filter (·.block = k.block) = c k :=
    List.filter_eq_self.2 fun r hr => by simpa using hc k r hr
  rw [h k] at once
  by_cases hk : c k = []
  · simp only [hk, if_true, Option.map_none, Option.toList_none, List.perm_nil] at once
    simp [EventHistory.passed, once, hk]
  · simp only [hk, if_false, Option.map_some, Option.toList_some, List.perm_singleton] at once
    simp [EventHistory.passed, once, whole]

/-- The history of gathered records has the blocks that hold any, each with its records arranged. -/
theorem get?_filed (h : g.Holds c) (he : entries.Perm g.entries)
    (hc : ∀ k, ∀ r ∈ c k, r.block = k.block) (k : EventKey) :
    (filed entries).get? k.vault k.block =
      if c k = [] then none else some (EventHistory.arranged (c k)) := by
  rw [filed_eq_extendAll]
  by_cases hk : c k = []
  · have others : ∀ e ∈ entries, e.1 ≠ k := fun e hmem hek =>
      (h.named_iff he k).1 ⟨e, hmem, hek⟩ hk
    simp [EventHistory.get?_extendAll_of_not_named _ _ others, hk]
  · rw [EventHistory.get?_extendAll_empty _ ((h.named_iff he k).2 hk), h.passed_eq he hc, if_neg hk]

theorem isSome_vault?_filed (h : g.Holds c) (he : entries.Perm g.entries) (vault : Address) :
    ((filed entries).vault? vault).isSome = true ↔ ∃ block, c ⟨vault, block⟩ ≠ [] := by
  rw [filed_eq_extendAll, EventHistory.isSome_vault?_extendAll]
  simp only [EventHistory.vault?_empty, Option.isSome_none, Bool.false_eq_true, false_or]
  constructor
  · rintro ⟨e, hmem, rfl⟩
    exact ⟨e.1.block, (h.named_iff he _).1 ⟨e, hmem, rfl⟩⟩
  · rintro ⟨block, hb⟩
    obtain ⟨e, hmem, hek⟩ := (h.named_iff he _).2 hb
    exact ⟨e, hmem, by rw [hek]⟩

end Holds

end Gathered

end VaultIndex
