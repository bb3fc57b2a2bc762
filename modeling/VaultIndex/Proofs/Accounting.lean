import Mathlib.Data.List.TakeWhile
import VaultIndex.Proofs.Conservation
import VaultIndex.Proofs.HarvestOutcomes
import VaultIndex.Proofs.Tallies

/-!
# The accounts of a harvest

Each item that is taken in is stored, counted as a failure or passed over. A task keeps its own
count of what it has stored and gives it away only at the end of its stream, so that at every moment
the counters and what the tasks will still add to them come to the same (`Pool.Move.expected_eq`).
At the end this is the number of failures, and the number of the records from streams that did not
break down (`harvest_accounts_for_items`).
-/

namespace VaultIndex

/-! ### What items come to -/

/-- The items of a stream that are taken in. -/
def takenIn (items : List StreamItem) : List StreamItem := items.takeWhile (· ≠ .breakdown)

namespace StreamItem

def isFailure : StreamItem → Bool
  | failure _ => true
  | event _ | breakdown => false

/-- Whether this is an event whose place on the chain is not fully known. -/
def isUnlocated : StreamItem → Bool
  | event e => e.block.isNone || e.txHash.isNone || e.txIndex.isNone || e.logIndex.isNone
  | failure _ | breakdown => false

lemma fate_eq_failed_iff {kind : EventKind} {item : StreamItem} :
    item.fate kind = .failed ↔ item.isFailure = true := by
  cases item with
  | event e => cases h : e.located? kind <;> simp [fate, isFailure, h]
  | failure cause => simp [fate, isFailure]
  | breakdown => simp [fate, isFailure]

/-- An item makes a record, is a failure or is an unlocated event. -/
lemma one_fate (kind : EventKind) {item : StreamItem} (hi : item ≠ .breakdown) :
    (item.record? kind).isSome.toNat + item.isFailure.toNat + item.isUnlocated.toNat = 1 := by
  cases item with
  | event e =>
    obtain ⟨block, txHash, txIndex, logIndex, value⟩ := e
    cases block <;> cases txHash <;> cases txIndex <;> cases logIndex <;> rfl
  | failure cause => rfl
  | breakdown => exact absurd rfl hi

end StreamItem

section Items

variable {item : StreamItem} {items rest : List StreamItem}

@[simp] lemma takenIn_nil : takenIn [] = [] := rfl

@[simp] lemma takenIn_breakdown : takenIn (.breakdown :: rest) = [] := by simp [takenIn]

lemma takenIn_cons (hi : item ≠ .breakdown) : takenIn (item :: rest) = item :: takenIn rest := by
  simp [takenIn, hi]

lemma ne_breakdown_of_mem_takenIn (hi : item ∈ takenIn items) : item ≠ .breakdown := by
  simpa using List.mem_takeWhile_imp hi

end Items

/-! ### Taking items in -/

/-- What a stream adds to a counter when so many of its records have been stored already and these
items are still to come. -/
def growth (chain : ChainId) (kind : EventKind) (added : Nat) (items : List StreamItem)
    (c : Counter) : Nat :=
  if c = .logQueriesFailed chain kind then (takenIn items).countP StreamItem.isFailure
  else if c = .eventsHarvested chain kind ∧ .breakdown ∉ items then
    added + (recordsIn kind items).length
  else 0

namespace Intake

variable {chain : ChainId} {filter : EventFilter}

lemma take_added (x : Intake) (item : StreamItem) :
    (x.take chain filter item).added = x.added + (item.record? filter.kind).isSome.toNat := by
  cases hf : item.fate filter.kind with
  | stored r =>
    rw [take, hf, StreamItem.fate_eq_stored_iff.1 hf]
    rfl
  | failed | unlocated | fatal =>
    have none : item.record? filter.kind = none := StreamItem.record?_eq_none (by simp [hf])
    simp [take, hf, none]

lemma added_takeAll (x : Intake) (items : List StreamItem) :
    (x.takeAll chain filter items).added = x.added + (recordsIn filter.kind items).length := by
  induction items generalizing x with
  | nil => rfl
  | cons item rest ih =>
    by_cases hi : item = .breakdown
    · rw [hi, recordsIn_breakdown]
      rfl
    · rw [takeAll_cons x rest hi, ih, take_added, recordsIn_cons rest hi, List.length_append]
      cases item.record? filter.kind <;> simp [Nat.add_assoc]

lemma total_take (x : Intake) (item : StreamItem) (c : Counter) :
    (x.take chain filter item).tally.total c = x.tally.total c +
      if c = .logQueriesFailed chain filter.kind then item.isFailure.toNat else 0 := by
  have failed : item.isFailure = true ↔ item.fate filter.kind = .failed :=
    StreamItem.fate_eq_failed_iff.symm
  cases hf : item.fate filter.kind with
  | failed =>
    rw [take, hf, failed.2 hf]
    by_cases hc : c = .logQueriesFailed chain filter.kind
    · simp [hc, Tally.total_add_self]
    · simp [hc, Tally.total_add_ne _ _ _ _ (Ne.symm hc)]
  | stored | unlocated | fatal =>
    have other : item.isFailure = false := by simp [← Bool.not_eq_true, failed, hf]
    simp [take, hf, other]

/-- What an item adds to a counter at once and what it leaves to be added. -/
lemma growth_take (x : Intake) {item : StreamItem} (rest : List StreamItem)
    (hi : item ≠ .breakdown) (c : Counter) :
    (x.take chain filter item).tally.total c +
        growth chain filter.kind (x.take chain filter item).added rest c =
      x.tally.total c + growth chain filter.kind x.added (item :: rest) c := by
  have records : (recordsIn filter.kind (item :: rest)).length =
      (item.record? filter.kind).isSome.toNat + (recordsIn filter.kind rest).length := by
    rw [recordsIn_cons rest hi, List.length_append]
    cases item.record? filter.kind <;> rfl
  have failures : (takenIn (item :: rest)).countP StreamItem.isFailure =
      item.isFailure.toNat + (takenIn rest).countP StreamItem.isFailure := by
    rw [takenIn_cons hi, List.countP_cons, Nat.add_comm]
    cases item.isFailure <;> rfl
  rw [total_take, take_added, growth, growth, records, failures]
  by_cases hc : c = .logQueriesFailed chain filter.kind
  · simp only [hc, if_true]
    omega
  · simp only [hc, if_false, List.mem_cons, hi.symm, false_or, Nat.add_assoc, Nat.zero_add]

lemma total_finish (x : Intake) (c : Counter) :
    (x.finish chain filter).tally.total c =
      x.tally.total c + growth chain filter.kind x.added [] c := by
  rw [finish, growth]
  by_cases hc : c = .eventsHarvested chain filter.kind
  · simp [hc, Tally.total_add_self]
  · simp [hc, Tally.total_add_ne _ _ _ _ (Ne.symm hc)]

/-- A stream that is taken in adds to the counters what it was to add. -/
lemma total_takeAll (x : Intake) (items : List StreamItem) (c : Counter) :
    (x.takeAll chain filter items).tally.total c =
      x.tally.total c + growth chain filter.kind x.added items c := by
  induction items generalizing x with
  | nil => exact x.total_finish c
  | cons item rest ih =>
    by_cases hi : item = .breakdown
    · subst hi
      simp [takeAll, growth]
    · rw [takeAll_cons x rest hi, ih, x.growth_take rest hi]

end Intake

/-! ### All tasks of a harvest -/

namespace Harvest

variable {chain : ChainId} {kind : EventKind} {range : Range}
  {stream : EventFilter → List StreamItem} {bound : Nat} {c : Counter}

/-- What a task will still add to a counter. -/
def Task.growth (chain : ChainId) (stream : EventFilter → List StreamItem) (c : Counter)
    (t : Task) : Nat :=
  match t.progress with
  | .waiting => VaultIndex.growth chain t.filter.kind 0 (stream t.filter) c
  | .reading rest added => VaultIndex.growth chain t.filter.kind added rest c
  | .finished | .aborted => 0

/-- What some streams add to a counter when each is taken in as a whole. -/
def growths (chain : ChainId) (stream : EventFilter → List StreamItem) (c : Counter)
    (filters : List EventFilter) : Nat :=
  (filters.map fun f => growth chain f.kind 0 (stream f) c).sum

lemma growths_perm {filters filters' : List EventFilter} (h : filters.Perm filters') :
    growths chain stream c filters = growths chain stream c filters' := (h.map _).sum_nat

namespace Pool

/-- What a counter will come to when all tasks are over. -/
def expected (chain : ChainId) (stream : EventFilter → List StreamItem) (c : Counter) (p : Pool) :
    Nat :=
  p.tally.total c + (p.tasks.map (Task.growth chain stream c)).sum

lemma expected_start (filters : List EventFilter) (tally : Tally) :
    (start filters tally).expected chain stream c =
      tally.total c + growths chain stream c filters := by
  rw [expected, start, growths, List.map_map]
  rfl

/-- A move changes nothing of what a counter will come to. -/
theorem Move.expected_eq {p q : Pool} {i : Nat} (h : Move chain stream bound p i q) :
    q.expected chain stream c = p.expected chain stream c := by
  have moves {t u : Task} {tally : Tally} (ht : p.tasks[i]? = some t)
      (same : tally.total c + u.growth chain stream c = p.tally.total c + t.growth chain stream c) :
      tally.total c + ((p.tasks.set i u).map (Task.growth chain stream c)).sum =
        p.expected chain stream c := by
    have replaced := sum_map_set (f := Task.growth chain stream c) (b := u) ht
    rw [expected]
    omega
  cases h with
  | opens ht hb => exact moves ht rfl
  | takes ht hi => exact moves ht (Intake.growth_take ⟨p.gathered, p.tally, _⟩ _ hi c)
  | ends ht => exact moves ht (Intake.total_finish ⟨p.gathered, p.tally, _⟩ c)
  | breaks ht => exact moves ht (by simp [Task.growth, VaultIndex.growth])

lemma total_of_isOver {p : Pool} (ended : p.isOver = true) :
    p.expected chain stream c = p.tally.total c := by
  have nothing : ∀ t ∈ p.tasks, t.growth chain stream c = 0 := by
    rintro ⟨filter, progress⟩ ht
    rw [isOver, List.all_eq_true] at ended
    have hover := ended _ ht
    cases progress with
    | finished | aborted => rfl
    | waiting | reading => cases hover
  rw [expected, List.map_congr_left nothing]
  simp

end Pool

lemma total_gather (events : EventSource Id) (filters : List EventFilter) (g : Gathered)
    (tally : Tally) :
    (gather chain events filters g tally).2.total c =
      tally.total c + growths chain events c filters := by
  induction filters generalizing g tally with
  | nil => rfl
  | cons f rest ih =>
    let x := Intake.takeAll chain f ⟨g, tally, 0⟩ (events f)
    have step : gather chain events (f :: rest) g tally =
        gather chain events rest x.gathered x.tally := rfl
    rw [step, ih, Intake.total_takeAll, growths, growths, List.map_cons, List.sum_cons,
      Nat.add_assoc]

/-! ### The counters after a harvest -/

section Counters

variable {filters : List EventFilter} (kinds : ∀ f ∈ filters, f.kind = kind)

include kinds

lemma growths_logQueriesFailed :
    growths chain stream (.logQueriesFailed chain kind) filters =
      (filters.map fun f => (takenIn (stream f)).countP StreamItem.isFailure).sum := by
  apply congrArg List.sum
  apply List.map_congr_left
  intro f hf
  simp [growth, kinds f hf]

lemma growths_eventsHarvested :
    growths chain stream (.eventsHarvested chain kind) filters =
      ((filters.filter fun f => .breakdown ∉ stream f).map fun f =>
        (recordsIn kind (stream f)).length).sum := by
  have each : growths chain stream (.eventsHarvested chain kind) filters =
      (filters.map fun f =>
        if .breakdown ∉ stream f then (recordsIn kind (stream f)).length else 0).sum := by
    apply congrArg List.sum
    apply List.map_congr_left
    intro f hf
    simp [growth, kinds f hf]
  rw [each, List.sum_map_ite]
  simp

lemma growths_eq_zero (hf : c ≠ .logQueriesFailed chain kind)
    (hh : c ≠ .eventsHarvested chain kind) : growths chain stream c filters = 0 := by
  have nothing : ∀ f ∈ filters, growth chain f.kind 0 (stream f) c = 0 := by
    intro f hmem
    simp [growth, kinds f hmem, hf, hh]
  rw [growths, List.map_congr_left nothing]
  simp

end Counters

end Harvest

/-! ### The records of a vault -/

namespace EventHistory

variable {h : EventHistory} {vault : Address}

/-- The events of a vault, block by block. -/
def recordsOf (h : EventHistory) (vault : Address) : List EventRecord :=
  ((h.vault? vault).getD ∅).values.flatten

lemma filter_recordsOf
    (tidy : ∀ block records, h.get? vault block = some records → ∀ r ∈ records, r.block = block)
    (block : UInt64) :
    (h.recordsOf vault).filter (·.block = block) = (h.get? vault block).getD [] := by
  simp only [← get?_getD_vault?] at tidy ⊢
  exact Table.filter_flatten_values (f := EventRecord.block) tidy block

/-- All events are those of the vaults, where no vault with events is left out. -/
lemma recordCount_eq_sum_recordsOf {addresses : List Address} (distinct : addresses.Nodup)
    (covers : ∀ vault, (h.vault? vault).isSome = true → vault ∈ addresses) :
    h.recordCount = (addresses.map fun vault => (h.recordsOf vault).length).sum := by
  rw [recordCount_eq_sum, Table.sum_values_eq_of_keys blockCount distinct covers]
  apply congrArg List.sum
  apply List.map_congr_left
  intro vault _
  have same : h.vaults.get? vault = h.vault? vault := rfl
  rw [recordsOf, List.length_flatten, same]
  cases h.vault? vault <;> rfl

end EventHistory

namespace Harvest

variable {chain : ChainId} {kind : EventKind} {range : Range} {vaults : Table Address Vault}
  {history : EventHistory} {before after : Tally} {stream : EventFilter → List StreamItem}

/-- The records of a vault are those that its stream gives. -/
lemma IsHarvest.perm_recordsOf (h : IsHarvest chain kind range stream vaults history)
    {address : Address} {v : Vault} (hv : vaults.get? address = some v) (hc : v.chainId = chain) :
    (history.recordsOf address).Perm (recordsIn kind (stream (filterOf kind range address v))) := by
  have arrangement {block : UInt64} {records : List EventRecord}
      (hr : history.get? address block = some records) :=
    h.arranged hv hc hr
  have tidy : ∀ block records, history.get? address block = some records →
      ∀ r ∈ records, r.block = block := by
    intro block records hr r hmem
    simpa using (List.mem_filter.1 (((arrangement hr).mem_iff r).1 hmem)).2
  rw [List.perm_iff_count]
  intro r
  have whole (l : List EventRecord) : (l.filter (·.block = r.block)).count r = l.count r :=
    List.count_filter (decide_eq_true rfl)
  rw [← whole (history.recordsOf address), EventHistory.filter_recordsOf tidy,
    ← whole (recordsIn _ _)]
  cases hr : history.get? address r.block with
  | none =>
    have nothing := (h.block_iff hv hc r.block).not.1 (by simp [hr])
    rw [Option.getD_none, List.count_nil, List.count_eq_zero_of_not_mem]
    intro hmem
    obtain ⟨hmem, hb⟩ := List.mem_filter.1 hmem
    exact nothing ⟨r, hmem, of_decide_eq_true hb⟩
  | some records =>
    rw [Option.getD_some, EventHistory.isArrangement_iff.1 (arrangement hr)]
    exact (List.mergeSort_perm _ _).count_eq r

lemma IsHarvest.perm_recordsOf_of_mem (h : IsHarvest chain kind range stream vaults history)
    {f : EventFilter} (hf : f ∈ filters chain kind range vaults.entries) :
    (history.recordsOf f.address).Perm (recordsIn kind (stream f)) := by
  obtain ⟨address, v, hmem, hc, rfl⟩ := mem_filters.1 hf
  exact h.perm_recordsOf ((Table.get?_eq_some_iff _ _ _).2 hmem) hc

/-- No other vault has records. -/
lemma IsHarvest.recordCount_eq (h : IsHarvest chain kind range stream vaults history) :
    history.recordCount = ((filters chain kind range vaults.entries).map fun f =>
      (history.recordsOf f.address).length).sum := by
  have distinct : ((filters chain kind range vaults.entries).map (·.address)).Nodup :=
    nodup_filters (.refl _)
  rw [EventHistory.recordCount_eq_sum_recordsOf distinct, List.map_map]
  · rfl
  · intro address known
    obtain ⟨v, hv, hc, -⟩ := (h.vault_iff address).1 known
    have hmem := (Table.get?_eq_some_iff _ _ _).1 hv
    exact List.mem_map.2 ⟨_, mem_filters.2 ⟨address, v, hmem, hc, rfl⟩, rfl⟩

/-- Every item that was taken in has one fate: those that make a record are the records of their
vault, the failures have been counted, and the unlocated events have left nothing. The records of
streams that did not break down have been counted as well. -/
structure Accounts (chain : ChainId) (kind : EventKind) (range : Range)
    (stream : EventFilter → List StreamItem) (vaults : Table Address Vault) (before : Tally)
    (history : EventHistory) (after : Tally) : Prop where
  one_fate : ∀ f ∈ filters chain kind range vaults.entries, ∀ item ∈ takenIn (stream f),
    (item.record? kind).isSome.toNat + item.isFailure.toNat + item.isUnlocated.toNat = 1
  stored : ∀ f ∈ filters chain kind range vaults.entries,
    (history.recordsOf f.address).Perm
      ((takenIn (stream f)).filterMap (StreamItem.record? kind))
  recordCount_eq : history.recordCount =
    ((filters chain kind range vaults.entries).map fun f =>
      (history.recordsOf f.address).length).sum
  failed : after.total (.logQueriesFailed chain kind) =
    before.total (.logQueriesFailed chain kind) +
      ((filters chain kind range vaults.entries).map fun f =>
        (takenIn (stream f)).countP StreamItem.isFailure).sum
  harvested : after.total (.eventsHarvested chain kind) =
    before.total (.eventsHarvested chain kind) +
      (((filters chain kind range vaults.entries).filter fun f => .breakdown ∉ stream f).map
        fun f => (history.recordsOf f.address).length).sum
  harvested_all : (∀ f ∈ filters chain kind range vaults.entries, .breakdown ∉ stream f) →
    after.total (.eventsHarvested chain kind) =
      before.total (.eventsHarvested chain kind) + history.recordCount
  untouched : ∀ c, c ≠ .logQueriesFailed chain kind → c ≠ .eventsHarvested chain kind →
    after.total c = before.total c

/-- A harvest whose counters grow by what its streams add has its accounts in order. -/
lemma IsHarvest.accounts (h : IsHarvest chain kind range stream vaults history)
    (total : ∀ c, after.total c =
      before.total c + growths chain stream c (filters chain kind range vaults.entries)) :
    Accounts chain kind range stream vaults before history after := by
  have kinds : ∀ f ∈ filters chain kind range vaults.entries, f.kind = kind := by
    intro f hf
    obtain ⟨address, v, -, -, rfl⟩ := mem_filters.1 hf
    rfl
  have harvested : after.total (.eventsHarvested chain kind) =
      before.total (.eventsHarvested chain kind) +
        (((filters chain kind range vaults.entries).filter fun f => .breakdown ∉ stream f).map
          fun f => (history.recordsOf f.address).length).sum := by
    rw [total, growths_eventsHarvested kinds]
    congr 2
    apply List.map_congr_left
    intro f hf
    exact (h.perm_recordsOf_of_mem (List.mem_filter.1 hf).1).length_eq.symm
  refine ⟨?_, fun f => h.perm_recordsOf_of_mem, h.recordCount_eq, ?_, harvested, ?_, ?_⟩
  · intro f _ item hi
    exact StreamItem.one_fate kind (ne_breakdown_of_mem_takenIn hi)
  · rw [total, growths_logQueriesFailed kinds]
  · intro unbroken
    have all : (filters chain kind range vaults.entries).filter (fun f => .breakdown ∉ stream f) =
        filters chain kind range vaults.entries := by
      rw [List.filter_eq_self]
      intro f hf
      exact decide_eq_true (unbroken f hf)
    rw [harvested, all, h.recordCount_eq]
  · intro c hf hh
    rw [total, growths_eq_zero kinds hf hh, Nat.add_zero]

section Sources

variable {source : ChainSource Id} {events : EventSource Id}
  (hs : source.eventSource chain = pure (.ok events))

include hs

lemma total_harvest (kind : EventKind) (range : Range) (vaults : Table Address Vault)
    (before : Tally) (c : Counter) :
    (harvest source chain kind range vaults before).2.total c =
      before.total c + growths chain events c (filters chain kind range vaults.entries) := by
  rw [harvest_eq hs]
  exact total_gather events _ _ _

lemma Outcome.total_eq {maxConcurrency : Nat}
    (h : Outcome source chain kind range maxConcurrency vaults before history after) (c : Counter) :
    after.total c =
      before.total c + growths chain events c (filters chain kind range vaults.entries) := by
  cases h with
  | refused refusal => cases hs.symm.trans refusal
  | @harvested _ order p _ had ho run ended he =>
    obtain rfl := Except.ok.inj (hs.symm.trans had)
    have same : (filters chain kind range order).Perm (filters chain kind range vaults.entries) :=
      (ho.filter _).map _
    have kept : p.expected chain events c =
        (Pool.start (filters chain kind range order) before).expected chain events c :=
      run.eq_of_kept fun move => (Pool.Move.of_move? move).expected_eq
    rw [← Pool.total_of_isOver ended, kept, Pool.expected_start, growths_perm same]

/-- However a harvest goes on, and also where one vault is asked after the other, its accounts are
in order: each item is a stored record, a counted failure or nothing, and the counters have grown by
the failures and by the records of the streams that did not break down. -/
theorem harvest_accounts_for_items (kind : EventKind) (range : Range)
    (vaults : Table Address Vault) (before : Tally) :
    Accounts chain kind range events vaults before
      (harvest source chain kind range vaults before).1
      (harvest source chain kind range vaults before).2 ∧
    ∀ maxConcurrency history after,
      Outcome source chain kind range maxConcurrency vaults before history after →
        Accounts chain kind range events vaults before history after := by
  constructor
  · exact (isHarvest_harvest hs before).accounts (total_harvest hs kind range vaults before)
  · intro maxConcurrency history after h
    exact (h.isHarvest hs).accounts (h.total_eq hs)

end Sources

/-- One stream brings a failure, an event and an unlocated event, another one breaks down after an
event. Two records are stored, of which one is counted, and one failure is. -/
theorem harvest_accounts_for_broken_stream :
    let event (block : UInt64) : StreamItem := .event ⟨some block, some ⟨7⟩, some 0, some 0, 100⟩
    let stream : EventFilter → List StreamItem := fun filter =>
      if filter.address = .zero then
        [.failure (.decode "no event"), event 5, .event ⟨some 5, none, none, none, 1⟩]
      else [event 6, .breakdown, event 7]
    let source : ChainSource Id :=
      ⟨fun _ => .ok stream, fun chain _ => .error (.unknownChain chain)⟩
    let vaults : Table Address Vault :=
      .ofList [(.zero, .new 1 .zero "3.0.0"), (⟨1⟩, .new 1 ⟨1⟩ "3.0.0"), (⟨2⟩, .new 10 ⟨2⟩ "3.0.0")]
    ∃ history after, Outcome source 1 .managementFee {} 2 vaults {} history after ∧
      history.recordCount = 2 ∧
      after.total (.logQueriesFailed 1 .managementFee) = 1 ∧
      after.total (.eventsHarvested 1 .managementFee) = 1 := by
  intro event stream source vaults
  have had : source.eventSource 1 = pure (.ok stream) := rfl
  obtain ⟨history, after, outcome⟩ := exists_outcome source 1 .managementFee {} 2 vaults {}
  have accounts := (harvest_accounts_for_items had .managementFee {} vaults {}).2 _ _ _ outcome
  have asked : filters 1 .managementFee {} vaults.entries =
      [filterOf .managementFee {} .zero (.new 1 .zero "3.0.0"),
        filterOf .managementFee {} ⟨1⟩ (.new 1 ⟨1⟩ "3.0.0")] := rfl
  have stored := accounts.stored
  rw [asked, List.forall_mem_cons, List.forall_mem_singleton] at stored
  have first : (history.recordsOf .zero).length = 1 := stored.1.length_eq
  have second : (history.recordsOf ⟨1⟩).length = 1 := stored.2.length_eq
  refine ⟨history, after, outcome, ?_, ?_, ?_⟩
  · rw [accounts.recordCount_eq, asked]
    simp only [List.map_cons, List.map_nil, filterOf, first, second]
    rfl
  · rw [accounts.failed, asked]
    rfl
  · have unbroken : (filters 1 .managementFee {} vaults.entries).filter
        (fun f => .breakdown ∉ stream f) =
          [filterOf .managementFee {} .zero (.new 1 .zero "3.0.0")] := rfl
    rw [accounts.harvested, unbroken]
    simp only [List.map_cons, List.map_nil, filterOf, first]
    rfl

end Harvest

end VaultIndex
