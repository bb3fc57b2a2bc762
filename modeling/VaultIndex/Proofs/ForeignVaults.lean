import VaultIndex.Index.Service
import VaultIndex.Proofs.Harvests
import VaultIndex.Proofs.Snapshots

/-!
# Vaults of other chains

The vaults that a snapshot files under a chain may be registered on other ones. No events are asked
for them, but they stand in the place of a vault of the chain that has the same address and comes
earlier in the list, and forward APYs are computed for them as well. The report on a chain
depends on its own vaults alone exactly if neither happens (`Indexer.report_of_own_vaults_iff`).
-/

namespace VaultIndex

namespace ChainSnapshot

variable {chain : ChainId} {c : ChainSnapshot} {address : Address} {v : Vault}

/-! ### Which vaults count -/

/-- The snapshot without the vaults of other chains. -/
def ofChain (c : ChainSnapshot) (chain : ChainId) : ChainSnapshot :=
  { c with vaults := c.vaults.filter (·.chainId = chain) }

lemma get?_ofChain (c : ChainSnapshot) (chain : ChainId) (address : Address) :
    (c.ofChain chain).vaultsByAddress.get? address =
      ((c.vaults.filter (·.address = address)).filter (·.chainId = chain)).getLast? := by
  rw [vaultsByAddress, get?_byAddress, ofChain, List.filter_comm]

lemma chainId_of_get?_ofChain (h : (c.ofChain chain).vaultsByAddress.get? address = some v) :
    v.chainId = chain := by
  rw [get?_ofChain] at h
  simpa using (List.mem_filter.1 (List.mem_of_getLast? h)).2

lemma get?_ofChain_eq_none_iff :
    (c.ofChain chain).vaultsByAddress.get? address = none ↔
      ∀ w ∈ c.vaults, w.chainId = chain → w.address ≠ address := by
  rw [get?_ofChain, List.getLast?_eq_none_iff, List.filter_eq_nil_iff]
  simp only [List.mem_filter, decide_eq_true_eq, and_imp]
  exact ⟨fun h w hw hc ha => h w hw ha hc, fun h w hw ha hc => h w hw hc ha⟩

/-- A vault of the chain that counts for its address counts without those of other chains too. -/
lemma get?_ofChain_of_own (counts : c.vaultsByAddress.get? address = some v)
    (own : v.chainId = chain) : (c.ofChain chain).vaultsByAddress.get? address = some v := by
  rw [vaultsByAddress, get?_byAddress, List.getLast?_eq_some_iff] at counts
  obtain ⟨earlier, counts⟩ := counts
  rw [get?_ofChain, counts, List.filter_append, List.filter_cons_of_pos (by simpa using own)]
  simp

/-! ### Keeping chains apart -/

/-- No vault of another chain that counts for its address is of the third generation or stands in
the place of a vault of the chain. -/
def Separates (c : ChainSnapshot) (chain : ChainId) : Prop :=
  ∀ v, c.vaultsByAddress.get? v.address = some v → v.chainId ≠ chain →
    v.isV3 = false ∧ ∀ w ∈ c.vaults, w.chainId = chain → w.address ≠ v.address

namespace Separates

lemma get?_ofChain_iff (h : c.Separates chain) :
    (c.ofChain chain).vaultsByAddress.get? address = some v ↔
      c.vaultsByAddress.get? address = some v ∧ v.chainId = chain := by
  constructor
  · intro left
    have own : v.chainId = chain := chainId_of_get?_ofChain left
    cases counts : c.vaultsByAddress.get? address with
    | none =>
      rw [vaultsByAddress, get?_byAddress, List.getLast?_eq_none_iff] at counts
      rw [get?_ofChain, counts] at left
      cases left
    | some u =>
      obtain rfl : u.address = address := (mem_of_get?_vaultsByAddress counts).2
      have hu : u.chainId = chain := by
        by_contra foreign
        rw [get?_ofChain_eq_none_iff.2 (h u counts foreign).2] at left
        cases left
      rw [get?_ofChain_of_own counts hu] at left
      exact ⟨left, own⟩
  · rintro ⟨counts, own⟩
    exact get?_ofChain_of_own counts own

lemma entries_ofChain (h : c.Separates chain) :
    (c.ofChain chain).vaultsByAddress.entries =
      c.vaultsByAddress.entries.filter (·.2.chainId = chain) := by
  refine Table.eq_of_mem_iff (Table.ascending _) ((Table.ascending _).filter _) ?_
  rintro ⟨address, v⟩
  rw [← Table.get?_eq_some_iff, h.get?_ofChain_iff, Table.get?_eq_some_iff, List.mem_filter,
    decide_eq_true_eq]

/-- Events are asked for the same vaults. -/
lemma filters_ofChain (h : c.Separates chain) (kind : EventKind) (range : Harvest.Range) :
    Harvest.filters chain kind range (c.ofChain chain).vaultsByAddress.entries =
      Harvest.filters chain kind range c.vaultsByAddress.entries := by
  rw [Harvest.filters, h.entries_ofChain, List.filter_filter]
  simp only [Bool.and_self]
  rfl

/-- Forward APYs are computed for the same vaults. -/
lemma filter_isV3_ofChain (h : c.Separates chain) :
    (c.ofChain chain).vaultsByAddress.values.filter Vault.isV3 =
      c.vaultsByAddress.values.filter Vault.isV3 := by
  rw [Table.values, h.entries_ofChain, Table.values, List.filter_map, List.filter_map,
    List.filter_filter]
  congr 1
  refine List.filter_congr ?_
  rintro ⟨address, v⟩ hmem
  have counts : c.vaultsByAddress.get? address = some v := (Table.get?_eq_some_iff _ _ _).2 hmem
  by_cases own : v.chainId = chain
  · simp [own]
  · obtain rfl : v.address = address := (mem_of_get?_vaultsByAddress counts).2
    simp [(h v counts own).1]

end Separates

end ChainSnapshot

/-! ### The vaults with a forward APY -/

namespace ForwardApy

variable {registry : ChainRegistry} {source : ChainSource Id}
  {strategies : Table Address (Table Address Strategy)}

lemma isSome_get?_addAll (vaults : List Vault) (apys : Table Address ForwardApy) (tally : Tally)
    (address : Address) :
    ((addAll registry source strategies vaults apys tally).1.get? address).isSome = true ↔
      (apys.get? address).isSome = true ∨ ∃ v ∈ vaults, v.address = address := by
  induction vaults generalizing apys tally with
  | nil =>
    have step : addAll registry source strategies [] apys tally = (apys, tally) := rfl
    simp [step]
  | cons v rest ih =>
    let apy := forwardApy registry source v (strategiesOf strategies v) tally
    have step : addAll registry source strategies (v :: rest) apys tally =
        addAll registry source strategies rest (apys.insert v.address apy.1) apy.2 := rfl
    rw [step, ih]
    by_cases h : v.address = address
    · simp [h]
    · simp [Table.get?_insert_ne _ _ h, h]

/-- A forward APY is computed for each vault of the third generation that counts. -/
theorem isSome_get?_forwardApys (c : ChainSnapshot) (tally : Tally) (address : Address) :
    ((forwardApys registry source c.vaultsByAddress strategies tally).1.get? address).isSome =
        true ↔
      ∃ v, c.vaultsByAddress.get? address = some v ∧ v.isV3 = true := by
  rw [forwardApys, isSome_get?_addAll, Table.get?_emptyCollection, Option.isSome_none,
    or_iff_right Bool.false_ne_true]
  simp only [List.mem_filter, Table.values, List.mem_map, Prod.exists, exists_eq_right,
    ← Table.get?_eq_some_iff]
  constructor
  · rintro ⟨v, ⟨⟨key, counts⟩, third⟩, rfl⟩
    obtain rfl : v.address = key := (ChainSnapshot.mem_of_get?_vaultsByAddress counts).2
    exact ⟨v, counts, third⟩
  · rintro ⟨v, counts, third⟩
    have same := (ChainSnapshot.mem_of_get?_vaultsByAddress counts).2
    exact ⟨v, ⟨⟨address, counts⟩, third⟩, same⟩

end ForwardApy

/-! ### Reports -/

namespace Indexer

/-- Where chains are kept apart, leaving out the vaults of other chains changes nothing of what is
done for the report on a chain. -/
theorem indexChain_ofChain {chain : ChainId} {c : ChainSnapshot} (h : c.Separates chain)
    {m : Type → Type} [Monad m] (x : Indexer) (source : ChainSource m) :
    x.indexChain source chain (c.ofChain chain) = x.indexChain source chain c := by
  have harvested (kind : EventKind) :
      harvest source chain kind x.range (c.ofChain chain).vaultsByAddress =
        harvest source chain kind x.range c.vaultsByAddress := by
    rw [harvest, h.filters_ofChain]
    rfl
  have computed :
      forwardApys x.registry source (c.ofChain chain).vaultsByAddress c.strategiesByVault =
        forwardApys x.registry source c.vaultsByAddress c.strategiesByVault := by
    rw [forwardApys, h.filter_isV3_ofChain]
    rfl
  have strategies : (c.ofChain chain).strategiesByVault = c.strategiesByVault := rfl
  simp only [indexChain, harvestManagementFees, harvestPerformanceFees, harvested, strategies,
    computed]

/-- Chains on which every vault has changed its fee once, and which have no oracles. -/
def oneChange : ChainSource Id where
  eventSource _ := .ok fun _ => [.event ⟨some 0, some ⟨0⟩, some 0, some 0, 0⟩]
  aprOracle chain _ := .error (.unknownChain chain)

variable (x : Indexer) (chain : ChainId) (c : ChainSnapshot) (tally : Tally)

lemma isSome_vault?_managementFees (address : Address) :
    ((x.indexChain oneChange chain c tally).1.managementFees.vault? address).isSome = true ↔
      ∃ v, c.vaultsByAddress.get? address = some v ∧ v.chainId = chain := by
  have had : oneChange.eventSource chain =
      pure (.ok fun _ => [.event ⟨some 0, some ⟨0⟩, some 0, some 0, 0⟩]) := rfl
  have report : (x.indexChain oneChange chain c tally).1.managementFees =
      (harvest oneChange chain .managementFee x.range c.vaultsByAddress tally).1 := rfl
  rw [report, (Harvest.isHarvest_harvest had tally).vault_iff]
  simp [recordsIn, StreamItem.record?]

lemma isSome_get?_forwardApys (address : Address) :
    ((x.indexChain oneChange chain c tally).1.forwardApys.get? address).isSome = true ↔
      ∃ v, c.vaultsByAddress.get? address = some v ∧ v.isV3 = true :=
  ForwardApy.isSome_get?_forwardApys c _ address

variable {x chain c tally} in
/-- A vault of another chain that is not kept apart shows in the report. -/
theorem separates_of_indexChain_eq
    (same : (x.indexChain oneChange chain (c.ofChain chain) tally).1 =
      (x.indexChain oneChange chain c tally).1) : c.Separates chain := by
  intro v counts foreign
  have gone : (c.ofChain chain).vaultsByAddress.get? v.address = none := by
    refine Option.eq_none_iff_forall_ne_some.2 fun u left => ?_
    have own : u.chainId = chain := ChainSnapshot.chainId_of_get?_ofChain left
    have shows := (isSome_vault?_managementFees x chain _ tally v.address).2 ⟨u, left, own⟩
    rw [same, isSome_vault?_managementFees, counts] at shows
    obtain ⟨w, hw, hc⟩ := shows
    cases hw
    exact foreign hc
  refine ⟨Bool.eq_false_iff.2 fun third => ?_, ChainSnapshot.get?_ofChain_eq_none_iff.1 gone⟩
  have shows := (isSome_get?_forwardApys x chain c tally v.address).2 ⟨v, counts, third⟩
  rw [← same, isSome_get?_forwardApys, gone] at shows
  obtain ⟨w, hw, -⟩ := shows
  cases hw

/-- Where chains are kept apart, the report on a chain is made in the same way without the vaults of
other chains; where they are not, there are sources of events and of forward APYs by which it is
another one. -/
theorem report_of_own_vaults_iff :
    (c.Separates chain → ∀ (m : Type → Type) [Monad m] (x : Indexer) (source : ChainSource m),
      x.indexChain source chain (c.ofChain chain) = x.indexChain source chain c) ∧
    (¬c.Separates chain → ∃ source : ChainSource Id, ∀ (x : Indexer) (tally : Tally),
      (x.indexChain source chain (c.ofChain chain) tally).1 ≠
        (x.indexChain source chain c tally).1) := by
  constructor
  · intro h m _ x source
    exact indexChain_ofChain h x source
  · intro h
    exact ⟨oneChange, fun x tally same => h (separates_of_indexChain_eq same)⟩

/-- A vault of chain 10 takes the place of one of chain 1, whose fee change is lost, and another
one of chain 10 has a forward APY in the report on chain 1. -/
theorem report_shows_foreign_vaults :
    let single (chain : ChainId) (address : Address) : Vault :=
      { Vault.new chain address "3.0.0" with kind := .single }
    let c : ChainSnapshot := { vaults := [single 1 ⟨1⟩, single 10 ⟨1⟩, single 10 ⟨2⟩] }
    let x : Indexer := { registry := .empty, snapshot := ⟨∅⟩ }
    let report := (x.indexChain oneChange 1 c {}).1
    let own := (x.indexChain oneChange 1 (c.ofChain 1) {}).1
    report ≠ own ∧ own.managementFees.vaultCount = 1 ∧ report.managementFees.vaultCount = 0 ∧
      own.forwardApys.keys = [⟨1⟩] ∧ report.forwardApys.keys = [⟨1⟩, ⟨2⟩] := by
  intro single c x report own
  have fees : own.managementFees.vaultCount = 1 ∧ report.managementFees.vaultCount = 0 :=
    ⟨rfl, rfl⟩
  have apys : own.forwardApys.keys = [⟨1⟩] ∧ report.forwardApys.keys = [⟨1⟩, ⟨2⟩] := ⟨rfl, rfl⟩
  refine ⟨fun same => ?_, fees.1, fees.2, apys.1, apys.2⟩
  rw [same, fees.1] at fees
  cases fees.2

end Indexer

end VaultIndex
