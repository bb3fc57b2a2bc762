import VaultIndex.Proofs.Gathering
import VaultIndex.Proofs.HarvestMoves

/-!
# What a harvest comes to

At every moment of a harvest, what was gathered for a vault and what its stream still has to give
are together what the stream gives when it is read alone (`Pool.Balanced`). Once all tasks are over
the gathered records are therefore the same for every order of moves, and those that asking one
vault after the other gathers; the history is made of them in whatever order they are filed.
-/

namespace VaultIndex.Harvest

variable {chain : ChainId} {kind : EventKind} {range : Range}
  {stream : EventFilter → List StreamItem} {bound : Nat}

/-! ### What there is to gather -/

/-- The records of all streams, under their keys. -/
def contents (stream : EventFilter → List StreamItem) (filters : List EventFilter) (k : EventKey) :
    List EventRecord :=
  filters.flatMap fun f => under f.address (recordsIn f.kind (stream f)) k

lemma contents_cons (f : EventFilter) (filters : List EventFilter) (k : EventKey) :
    contents stream (f :: filters) k =
      under f.address (recordsIn f.kind (stream f)) k ++ contents stream filters k :=
  List.flatMap_cons

lemma block_of_mem_contents {filters : List EventFilter} (k : EventKey) :
    ∀ r ∈ contents stream filters k, r.block = k.block := by
  intro r hr
  obtain ⟨f, -, hr⟩ := List.mem_flatMap.1 hr
  exact block_of_mem_under hr

lemma contents_eq_nil {filters : List EventFilter} {k : EventKey}
    (h : ∀ f ∈ filters, f.address ≠ k.vault) : contents stream filters k = [] := by
  rw [contents, List.flatMap_eq_nil_iff]
  exact fun f hf => under_of_ne _ _ _ (h f hf)

/-- Where no two filters are about one vault, a vault's keys hold the records of its own stream. -/
lemma contents_of_mem {filters : List EventFilter} {f : EventFilter}
    (hd : (filters.map (·.address)).Nodup) (hf : f ∈ filters) (block : UInt64) :
    contents stream filters ⟨f.address, block⟩ =
      (recordsIn f.kind (stream f)).filter (·.block = block) := by
  induction filters with
  | nil => simp at hf
  | cons a rest ih =>
    rw [List.map_cons, List.nodup_cons] at hd
    rw [contents_cons]
    rcases List.mem_cons.1 hf with rfl | hf
    · have others : contents stream rest ⟨f.address, block⟩ = [] :=
        contents_eq_nil fun b hb hba => hd.1 (List.mem_map.2 ⟨b, hb, hba⟩)
      rw [others, List.append_nil, under_self]
    · have apart : a.address ≠ f.address := fun h => hd.1 (List.mem_map.2 ⟨f, hf, h.symm⟩)
      rw [under_of_ne _ _ _ apart, List.nil_append]
      exact ih hd.2 hf

/-! ### One vault after the other -/

theorem holds_gather {g : Gathered} {c : EventKey → List EventRecord} (h : g.Holds c)
    (chain : ChainId) (source : EventSource Id) (filters : List EventFilter) (tally : Tally) :
    (gather chain source filters g tally).1.Holds fun k => c k ++ contents source filters k := by
  induction filters generalizing g c tally with
  | nil => exact h.congr fun k => (List.append_nil _).symm
  | cons f rest ih =>
    let x := Intake.takeAll chain f ⟨g, tally, 0⟩ (source f)
    have hx : x.gathered.Holds fun k => c k ++ under f.address (recordsIn f.kind (source f)) k :=
      Gathered.Holds.takeAll h (source f)
    have step : gather chain source (f :: rest) g tally =
        gather chain source rest x.gathered x.tally := rfl
    rw [step]
    exact (ih hx x.tally).congr fun k => by rw [contents_cons, List.append_assoc]

/-! ### Many vaults at the same time -/

/-- The records that a task has still to add. -/
def Task.pending (stream : EventFilter → List StreamItem) (t : Task) : List EventRecord :=
  match t.progress with
  | .waiting => recordsIn t.filter.kind (stream t.filter)
  | .reading rest _ => recordsIn t.filter.kind rest
  | .finished | .aborted => []

namespace Pool

/-- No two tasks are about one vault, and what was gathered for a vault, with what its task has
still to add, is what its stream gives. -/
structure Balanced (stream : EventFilter → List StreamItem) (filters : List EventFilter)
    (p : Pool) : Prop where
  filters_eq : p.tasks.map (·.filter) = filters
  distinct : (filters.map (·.address)).Nodup
  balance : ∃ c, p.gathered.Holds c ∧
    (∀ t ∈ p.tasks, ∀ block, c ⟨t.filter.address, block⟩ ++
      (t.pending stream).filter (·.block = block) =
        (recordsIn t.filter.kind (stream t.filter)).filter (·.block = block)) ∧
    ∀ k, (∀ f ∈ filters, f.address ≠ k.vault) → c k = []

theorem balanced_start {filters : List EventFilter} (hd : (filters.map (·.address)).Nodup)
    (tally : Tally) : (start filters tally).Balanced stream filters := by
  refine ⟨by simp [start, Function.comp_def], hd, fun _ => [], .empty, ?_, fun _ _ => rfl⟩
  intro t ht block
  obtain ⟨f, -, rfl⟩ := List.mem_map.1 ht
  rfl

/-- A task may go on if it adds just the records that it then no longer has to add. -/
theorem Balanced.replace {filters : List EventFilter} {p q : Pool} {i : Nat} {filter : EventFilter}
    {old new : Progress} {records : List EventRecord} (h : p.Balanced stream filters)
    (ht : p.tasks[i]? = some ⟨filter, old⟩) (hq : q.tasks = p.tasks.set i ⟨filter, new⟩)
    (hp : Task.pending stream ⟨filter, old⟩ = records ++ Task.pending stream ⟨filter, new⟩)
    (hg : ∀ c, p.gathered.Holds c →
      q.gathered.Holds fun k => c k ++ under filter.address records k) :
    q.Balanced stream filters := by
  obtain ⟨hf, hd, c, hc, hbal, hforeign⟩ := h
  have hmem : (⟨filter, old⟩ : Task) ∈ p.tasks := List.mem_of_getElem? ht
  have hdt : (p.tasks.map (·.filter.address)).Nodup := by
    rw [← hf, List.map_map] at hd
    exact hd
  refine ⟨?_, hd, _, hg c hc, ?_, ?_⟩
  · rw [hq, map_set_of_eq (b := ⟨filter, new⟩) ht rfl, hf]
  · intro t htq block
    rw [hq] at htq
    rcases mem_set_cases (b := ⟨filter, new⟩) ht rfl hdt htq with rfl | ⟨htp, hne⟩
    -- the task's own records move from what is pending to what is gathered
    · have hold := hbal _ hmem block
      rw [hp, List.filter_append] at hold
      rw [under_self, List.append_assoc]
      exact hold
    · rw [under_of_ne _ _ _ hne.symm, List.append_nil]
      exact hbal t htp block
  · intro k hk
    have hfilter : filter ∈ filters := by
      rw [← hf]
      exact List.mem_map.2 ⟨_, hmem, rfl⟩
    rw [hforeign k hk, under_of_ne _ _ _ (hk filter hfilter), List.append_nil]

theorem Balanced.move {filters : List EventFilter} {p q : Pool} {i : Nat}
    (hm : Move chain stream bound p i q) (h : p.Balanced stream filters) :
    q.Balanced stream filters := by
  have same : ∀ (vault : Address) c, p.gathered.Holds c →
      p.gathered.Holds fun k => c k ++ under vault [] k := by
    intro vault c hc
    exact hc.congr fun k => by rw [under_nil, List.append_nil]
  cases hm with
  | opens ht hb => exact h.replace ht rfl rfl (same _)
  | takes ht hi => exact h.replace ht rfl (recordsIn_cons _ hi) fun c hc => hc.take _
  | ends ht => exact h.replace ht rfl rfl (same _)
  | breaks ht => exact h.replace ht rfl (by simp [Task.pending]) (same _)

/-- When all tasks are over, all that the streams give has been gathered. -/
theorem Balanced.holds_contents {filters : List EventFilter} {p : Pool}
    (h : p.Balanced stream filters) (ho : p.isOver = true) :
    p.gathered.Holds (contents stream filters) := by
  obtain ⟨hf, hd, c, hc, hbal, hforeign⟩ := h
  refine hc.congr fun k => ?_
  by_cases hk : ∃ f ∈ filters, f.address = k.vault
  · obtain ⟨f, hmem, hv⟩ := hk
    obtain ⟨⟨f, progress⟩, ht, rfl⟩ := List.mem_map.1 (hf ▸ hmem)
    have hover : progress.isOver = true := by
      rw [isOver, List.all_eq_true] at ho
      exact ho _ ht
    have done : Task.pending stream ⟨f, progress⟩ = [] := by
      cases progress with
      | finished | aborted => rfl
      | waiting | reading => cases hover
    have hb := hbal _ ht k.block
    rw [done, List.filter_nil, List.append_nil] at hb
    have hk : k = ⟨f.address, k.block⟩ := by rw [hv]
    rw [hk, contents_of_mem hd hmem]
    exact hb
  · have apart : ∀ f ∈ filters, f.address ≠ k.vault := fun f hmem hv => hk ⟨f, hmem, hv⟩
    rw [hforeign k apart, contents_eq_nil apart]

end Pool

/-! ### The streams of the vaults of a chain -/

section Vaults

variable {vaults : Table Address Vault} {order : List (Address × Vault)}

lemma mem_filters {f : EventFilter} :
    f ∈ filters chain kind range order ↔
      ∃ address v, (address, v) ∈ order ∧ v.chainId = chain ∧
        f = filterOf kind range address v := by
  simp only [filters, List.mem_map, List.mem_filter, decide_eq_true_eq, Prod.exists, and_assoc,
    eq_comm (b := f)]

/-- However the vaults are enumerated, each is asked about once. -/
lemma nodup_filters (ho : order.Perm vaults.entries) :
    ((filters chain kind range order).map (·.address)).Nodup := by
  have keys : (vaults.entries.map (·.1)).Nodup := by
    refine List.pairwise_map.2 (vaults.ascending.imp fun hlt heq => ?_)
    rw [heq] at hlt
    exact Nat.lt_irrefl _ hlt
  have addresses : (filters chain kind range order).map (·.address) =
      (order.filter (·.2.chainId = chain)).map (·.1) := by
    rw [filters, List.map_map]
    rfl
  rw [addresses]
  exact ((ho.map _).nodup_iff.2 keys).sublist (List.filter_sublist.map _)

/-- Under the keys of a vault of the chain stand the records of its stream. -/
lemma contents_filters (ho : order.Perm vaults.entries) {address : Address} {v : Vault}
    (hv : vaults.get? address = some v) (hc : v.chainId = chain) (block : UInt64) :
    contents stream (filters chain kind range order) ⟨address, block⟩ =
      (recordsIn kind (stream (filterOf kind range address v))).filter (·.block = block) := by
  have hmem : filterOf kind range address v ∈ filters chain kind range order := by
    refine mem_filters.2 ⟨address, v, ho.mem_iff.2 ?_, hc, rfl⟩
    exact (Table.get?_eq_some_iff _ _ _).1 hv
  exact contents_of_mem (nodup_filters ho) hmem block

/-- Under the keys of any other address stands nothing. -/
lemma contents_filters_of_foreign (ho : order.Perm vaults.entries) {k : EventKey}
    (hk : ¬∃ v, vaults.get? k.vault = some v ∧ v.chainId = chain) :
    contents stream (filters chain kind range order) k = [] := by
  refine contents_eq_nil fun f hf hv => hk ?_
  obtain ⟨address, v, hmem, hc, rfl⟩ := mem_filters.1 hf
  exact ⟨v, (Table.get?_eq_some_iff _ _ _).2 (hv ▸ ho.mem_iff.1 hmem), hc⟩

end Vaults

/-! ### The history of a harvest -/

/-- A history has an entry for each vault of the chain whose stream makes a record, a block for each
block of such records, and under it those records, arranged. -/
structure IsHarvest (chain : ChainId) (kind : EventKind) (range : Range)
    (stream : EventFilter → List StreamItem) (vaults : Table Address Vault)
    (history : EventHistory) : Prop where
  vault_iff : ∀ address, (history.vault? address).isSome = true ↔
    ∃ v, vaults.get? address = some v ∧ v.chainId = chain ∧
      recordsIn kind (stream (filterOf kind range address v)) ≠ []
  block_iff : ∀ {address v}, vaults.get? address = some v → v.chainId = chain →
    ∀ block, (history.get? address block).isSome = true ↔
      ∃ r ∈ recordsIn kind (stream (filterOf kind range address v)), r.block = block
  arranged : ∀ {address v}, vaults.get? address = some v → v.chainId = chain →
    ∀ {block records}, history.get? address block = some records →
      IsArrangement records
        ((recordsIn kind (stream (filterOf kind range address v))).filter (·.block = block))

section History

variable {vaults : Table Address Vault} {order : List (Address × Vault)}

/-- There is one history of a harvest. -/
theorem IsHarvest.unique {h h' : EventHistory} (hh : IsHarvest chain kind range stream vaults h)
    (hh' : IsHarvest chain kind range stream vaults h') : h = h' := by
  refine EventHistory.ext_get? (fun address => ?_) fun address block => ?_
  · rw [Bool.eq_iff_iff, hh.vault_iff, hh'.vault_iff]
  by_cases ha : ∃ v, vaults.get? address = some v ∧ v.chainId = chain
  · obtain ⟨v, hv, hc⟩ := ha
    have hs : (h.get? address block).isSome = (h'.get? address block).isSome := by
      rw [Bool.eq_iff_iff, hh.block_iff hv hc, hh'.block_iff hv hc]
    cases h₁ : h.get? address block <;> cases h₂ : h'.get? address block <;> simp [h₁, h₂] at hs
    · rfl
    · rw [(hh.arranged hv hc h₁).unique (hh'.arranged hv hc h₂)]
  · have foreign : ∀ {g : EventHistory}, IsHarvest chain kind range stream vaults g →
        g.get? address block = none := by
      intro g hg
      have hnone : g.vault? address = none := by
        rw [← Option.not_isSome_iff_eq_none, hg.vault_iff]
        rintro ⟨v, hv, hc, -⟩
        exact ha ⟨v, hv, hc⟩
      rw [EventHistory.get?, hnone, Option.bind_none]
    rw [foreign hh, foreign hh']

/-- Gathering all that the streams give and filing it in any order makes the history of the harvest.
-/
theorem isHarvest_filed {g : Gathered} {entries : List (EventKey × List EventRecord)}
    (ho : order.Perm vaults.entries)
    (hg : g.Holds (contents stream (filters chain kind range order)))
    (he : entries.Perm g.entries) :
    IsHarvest chain kind range stream vaults (Gathered.filed entries) := by
  have hget := hg.get?_filed he block_of_mem_contents
  constructor
  · intro address
    rw [hg.isSome_vault?_filed he]
    constructor
    · rintro ⟨block, hb⟩
      have hk : ∃ v, vaults.get? address = some v ∧ v.chainId = chain :=
        by_contra fun hk => hb (contents_filters_of_foreign ho hk)
      obtain ⟨v, hv, hc⟩ := hk
      rw [contents_filters ho hv hc] at hb
      exact ⟨v, hv, hc, fun hnil => hb (by rw [hnil, List.filter_nil])⟩
    · rintro ⟨v, hv, hc, hne⟩
      obtain ⟨r, hr⟩ := List.exists_mem_of_ne_nil _ hne
      refine ⟨r.block, List.ne_nil_of_mem (a := r) ?_⟩
      rw [contents_filters ho hv hc]
      exact List.mem_filter.2 ⟨hr, by simp⟩
  · intro address v hv hc block
    rw [hget ⟨address, block⟩, contents_filters ho hv hc]
    by_cases hnil : (recordsIn kind (stream (filterOf kind range address v))).filter
        (·.block = block) = []
    · rw [if_pos hnil]
      refine iff_of_false (by simp) ?_
      rintro ⟨r, hr, hb⟩
      exact List.filter_eq_nil_iff.1 hnil r hr (by simpa using hb)
    · obtain ⟨r, hr⟩ := List.exists_mem_of_ne_nil _ hnil
      rw [if_neg hnil]
      exact iff_of_true rfl ⟨r, by simpa using hr⟩
  · intro address v hv hc block records hrec
    rw [hget ⟨address, block⟩, contents_filters ho hv hc] at hrec
    split at hrec
    · cases hrec
    · cases hrec
      exact EventHistory.isArrangement_arranged _

/-- Where an event source is had, a harvest gathers from one vault after the other. -/
lemma harvest_eq {source : ChainSource Id} {events : EventSource Id}
    (hs : source.eventSource chain = pure (.ok events)) (tally : Tally) :
    harvest source chain kind range vaults tally =
      let x := gather chain events (filters chain kind range vaults.entries) ∅ tally
      (x.1.history, x.2) := by
  have step : harvest source chain kind range vaults tally =
      (match (source.eventSource chain : Except ChainError (EventSource Id)) with
        | .error _ => (.empty, tally)
        | .ok events =>
          let x := gather chain events (filters chain kind range vaults.entries) ∅ tally
          (x.1.history, x.2) : EventHistory × Tally) := by
    cases h : (source.eventSource chain : Except ChainError (EventSource Id)) <;>
      rw [harvest, h] <;> rfl
  rw [step, hs]
  rfl

/-- Asking one vault after the other makes the history of the harvest. -/
theorem isHarvest_harvest {source : ChainSource Id} {events : EventSource Id}
    (hs : source.eventSource chain = pure (.ok events)) (tally : Tally) :
    IsHarvest chain kind range events vaults
      (harvest source chain kind range vaults tally).1 := by
  rw [harvest_eq hs]
  refine isHarvest_filed (.refl _) ?_ (.refl _)
  exact (holds_gather .empty chain events _ tally).congr fun k => List.nil_append _

/-- A harvest comes to one history, in whatever order the vaults are enumerated, their tasks move
and the gathered keys are filed. The history holds what the streams give, as asking one vault after
the other finds it, and every harvest that is under way can be brought to its end. -/
theorem harvest_independent_of_schedule (source : ChainSource Id) {events : EventSource Id}
    (hs : source.eventSource chain = pure (.ok events)) (kind : EventKind) (range : Range)
    (vaults : Table Address Vault) :
    ∃ history, IsHarvest chain kind range events vaults history ∧
      (∀ tally, (harvest source chain kind range vaults tally).1 = history) ∧
      ∀ (maxConcurrency : Nat) (tally : Tally) (order : List (Address × Vault)),
        order.Perm vaults.entries → ∀ p, Pool.Reaches chain events (permits maxConcurrency)
          (.start (filters chain kind range order) tally) p →
        (∃ q, Pool.Reaches chain events (permits maxConcurrency) p q ∧ q.isOver = true) ∧
        (p.isOver = true → ∀ entries : List (EventKey × List EventRecord),
          entries.Perm p.gathered.entries → Gathered.filed entries = history) := by
  have alone (tally : Tally) : IsHarvest chain kind range events vaults
      (harvest source chain kind range vaults tally).1 := isHarvest_harvest hs tally
  refine ⟨_, alone {}, fun tally => (alone tally).unique (alone {}), ?_⟩
  intro maxConcurrency tally order ho p hp
  refine ⟨Pool.exists_reaches_over chain events (permits_pos maxConcurrency) p, fun hover => ?_⟩
  intro entries he
  have balanced : p.Balanced events (filters chain kind range order) :=
    hp.preserves (fun move => Pool.Balanced.move (.of_move? move))
      (Pool.balanced_start (nodup_filters ho) tally)
  exact (isHarvest_filed ho (balanced.holds_contents hover) he).unique (alone {})

/-- Two vaults of a chain, one of whose streams is out of order and the other one's breaks down: the
history is the same when the second vault is asked first and the keys are filed backwards. -/
theorem harvest_backwards_of_two_vaults :
    let event (block index : UInt64) : StreamItem :=
      .event ⟨some block, some ⟨7⟩, some index, some 0, 100⟩
    let events : EventSource Id := fun filter =>
      if filter.address = .zero then
        [event 5 1, .failure (.decode "no event"), event 5 0, .event ⟨none, none, none, none, 1⟩]
      else [event 6 0, .breakdown, event 7 0]
    let source : ChainSource Id :=
      ⟨fun _ => .ok events, fun chain _ => .error (.unknownChain chain)⟩
    let vaults : Table Address Vault := .ofList
      [(.zero, .new 1 .zero "3.0.0"), (⟨1⟩, .new 1 ⟨1⟩ "3.0.0"), (⟨2⟩, .new 10 ⟨2⟩ "3.0.0")]
    let pool := Pool.start (filters 1 .managementFee {} vaults.entries.reverse) {}
    ∃ p, Pool.Reaches 1 events (permits 2) pool p ∧ p.isOver = true ∧
      Gathered.filed p.gathered.entries.reverse =
        (harvest source 1 .managementFee {} vaults {}).1 := by
  intro event events source vaults pool
  have had : source.eventSource 1 = pure (.ok events) := rfl
  obtain ⟨history, -, alone, schedules⟩ :=
    harvest_independent_of_schedule source had .managementFee {} vaults
  obtain ⟨p, hp, hover⟩ := (schedules 2 {} _ (List.reverse_perm _) pool (.refl pool)).1
  refine ⟨p, hp, hover, ?_⟩
  rw [alone]
  exact (schedules 2 {} _ (List.reverse_perm _) p hp).2 hover _ (List.reverse_perm _)

end History

end VaultIndex.Harvest
