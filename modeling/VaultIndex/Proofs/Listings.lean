import VaultIndex.Index.Outcome
import VaultIndex.Proofs.Calculations
import VaultIndex.Proofs.HarvestOutcomes

/-!
# How a snapshot is listed

A run can come to one report on a chain only (`Indexer.mayReport_iff`). That report knows nothing of
the order in which a snapshot lists vaults and strategies, as long as addresses are different, and
nothing of entries that are followed by another one with the same address
(`Indexer.report_independent_of_listing`).
-/

namespace VaultIndex

/-! ### The strategies of a vault -/

lemma nodup_strategiesOf (c : ChainSnapshot) (v : Vault) :
    ((strategiesOf c.strategiesByVault v).map (·.address)).Nodup := by
  rw [strategiesOf]
  apply Table.nodup_map_values
  intro address s hs
  rw [ChainSnapshot.strategiesByVault, Table.get?_map] at hs
  cases hc : c.strategies.get? v.address with
  | none =>
    rw [hc] at hs
    cases hs
  | some l =>
    rw [hc] at hs
    exact ChainSnapshot.address_of_get?_strategiesByAddress hs

/-! ### Reports on a chain -/

namespace Indexer

variable {x : Indexer} {source : ChainSource Id} {chain : ChainId} {c c' : ChainSnapshot}

/-- A run may come to a report, whatever has been counted before. -/
def MayReport (x : Indexer) (source : ChainSource Id) (chain : ChainId) (c : ChainSnapshot)
    (report : ChainReport) : Prop :=
  ∃ before after, x.Outcome source chain c before report after

lemma Outcome.report_eq {before after : Tally} {report : ChainReport}
    (h : x.Outcome source chain c before report after) (tally : Tally) :
    report = (x.indexChain source chain c tally).1 := by
  cases h with
  | @reported _ _ listed managementFees performanceFees apys first second _ hm hp hl ha =>
    let firstHarvest := harvest source chain .managementFee x.range c.vaultsByAddress tally
    let secondHarvest :=
      harvest source chain .performanceFee x.range c.vaultsByAddress firstHarvest.2
    let calculation :=
      forwardApys x.registry source c.vaultsByAddress c.strategiesByVault secondHarvest.2
    have made : (x.indexChain source chain c tally).1 =
        ⟨firstHarvest.1, secondHarvest.1, calculation.1⟩ := rfl
    have keyed : ∀ address v, c.vaultsByAddress.get? address = some v → v.address = address := by
      intro address v counts
      exact (ChainSnapshot.mem_of_get?_vaultsByAddress counts).2
    have same : ForwardApy.computedAlone x.registry source listed =
        ForwardApy.computedAlone x.registry source (strategiesOf c.strategiesByVault) := by
      funext v
      rw [ForwardApy.computedAlone, ForwardApy.computedAlone,
        forwardApy_eq_of_perm x.registry source v (nodup_strategiesOf c v) (hl v)]
    have computed := ForwardApy.isCalculation_forwardApys x.registry source keyed
      c.strategiesByVault secondHarvest.2
    have calculated := ha.isCalculation keyed
    rw [same] at calculated
    rw [made, hm.history_eq tally, hp.history_eq firstHarvest.2, calculated.unique computed]

lemma exists_outcome (x : Indexer) (source : ChainSource Id) (chain : ChainId) (c : ChainSnapshot)
    (before : Tally) : ∃ report after, x.Outcome source chain c before report after := by
  obtain ⟨managementFees, first, hm⟩ :=
    Harvest.exists_outcome source chain .managementFee x.range 0 c.vaultsByAddress before
  obtain ⟨performanceFees, second, hp⟩ :=
    Harvest.exists_outcome source chain .performanceFee x.range 0 c.vaultsByAddress first
  obtain ⟨p, run, ended⟩ := ForwardApy.Pool.exists_reaches_over x.registry
    (strategiesOf c.strategiesByVault) source.answers (ForwardApy.slots_pos 0)
    (.start (c.vaultsByAddress.values.filter Vault.isV3) second)
  exact ⟨_, _, .reported hm hp (fun _ => .refl _) (.computed (.refl _) run ended)⟩

/-- What may be reported is what is reported when one vault is asked after the other. -/
lemma mayReport_iff {report : ChainReport} :
    x.MayReport source chain c report ↔ report = (x.indexChain source chain c {}).1 := by
  constructor
  · rintro ⟨before, after, h⟩
    exact h.report_eq {}
  · rintro rfl
    obtain ⟨report, after, h⟩ := exists_outcome x source chain c {}
    exact ⟨{}, after, h.report_eq {} ▸ h⟩

lemma indexChain_congr (hv : c'.vaultsByAddress = c.vaultsByAddress)
    (hs : c'.strategiesByVault = c.strategiesByVault) :
    x.indexChain source chain c' = x.indexChain source chain c := by
  simp only [indexChain, hv, hs]

/-- There is one report on a chain, whatever is enumerated and goes on in which order. It stays the
same when lists of different addresses are rearranged, and when entries are left out that are
followed in their list by another one with the same address. -/
theorem report_independent_of_listing (x : Indexer) (source : ChainSource Id) (chain : ChainId) :
    (∀ c report, x.MayReport source chain c report ↔
      report = (x.indexChain source chain c {}).1) ∧
    (∀ c c' : ChainSnapshot, c.Distinct → c.Rearranges c' → ∀ report report',
      x.MayReport source chain c report → x.MayReport source chain c' report' →
        report = report') ∧
    ∀ (c : ChainSnapshot) (report report' : ChainReport), x.MayReport source chain c report →
      x.MayReport source chain c.withoutSuperseded report' → report = report' := by
  refine ⟨fun c report => mayReport_iff, ?_, ?_⟩
  · intro c c' distinct rearranged report report' h h'
    have same : x.indexChain source chain c' = x.indexChain source chain c :=
      indexChain_congr (rearranged.vaultsByAddress_eq distinct)
        (rearranged.strategiesByVault_eq distinct)
    rw [mayReport_iff.1 h, mayReport_iff.1 h', same]
  · intro c report report' h h'
    have same : x.indexChain source chain c.withoutSuperseded = x.indexChain source chain c :=
      indexChain_congr c.vaultsByAddress_withoutSuperseded c.strategiesByVault_withoutSuperseded
    rw [mayReport_iff.1 h, mayReport_iff.1 h', same]

/-- A vault with two strategies and an older one are listed backwards, and behind an entry that an
other one supersedes. The reports on all three listings are the same. -/
theorem report_of_three_listings :
    let config : ChainConfig := ⟨1, "Ethereum", default, ⟨7⟩, 100000, 30⟩
    let x : Indexer := { registry := ⟨.ofList [(1, config)]⟩, snapshot := ⟨∅⟩ }
    let event : StreamItem := .event ⟨some 5, some ⟨7⟩, some 0, some 0, 100⟩
    let source : ChainSource Id := ⟨fun _ => .ok fun _ => [event], fun _ _ => .ok fun _ => .ok 3⟩
    let older := Vault.new 1 ⟨1⟩ "0.4.6"
    let multiple := { Vault.new 1 ⟨2⟩ "3.0.0" with kind := .multiple }
    let listing (vaults : List Vault) (strategies : List Strategy) : ChainSnapshot :=
      ⟨vaults, Table.empty.insert ⟨2⟩ strategies⟩
    let c := listing [older, multiple] [.new ⟨11⟩ ⟨2⟩, .new ⟨12⟩ ⟨2⟩]
    let backwards := listing [multiple, older] [.new ⟨12⟩ ⟨2⟩, .new ⟨11⟩ ⟨2⟩]
    let repeated := listing [multiple, older, multiple] [.new ⟨11⟩ ⟨2⟩, .new ⟨12⟩ ⟨2⟩]
    ∃ report, x.MayReport source 1 c report ∧ x.MayReport source 1 backwards report ∧
      x.MayReport source 1 repeated report ∧ report.managementFees.vaultCount = 2 ∧
      report.forwardApys.keys = [⟨2⟩] := by
  intro config x event source older multiple listing c backwards repeated
  obtain ⟨one, rearranged, superseded⟩ := report_independent_of_listing x source 1
  have distinct : c.Distinct := by
    refine ⟨by decide, ?_⟩
    intro address l hl
    by_cases h : (⟨2⟩ : Address) = address
    · subst h
      rw [Table.get?_insert_self] at hl
      cases hl
      decide
    · rw [Table.get?_insert_ne _ _ h] at hl
      cases hl
  have reversed : c.Rearranges backwards := by
    refine ⟨.swap _ _ _, ?_⟩
    intro address
    by_cases h : (⟨2⟩ : Address) = address
    · subst h
      rw [Table.get?_insert_self, Table.get?_insert_self]
      exact .some (.swap _ _ _)
    · rw [Table.get?_insert_ne _ _ h, Table.get?_insert_ne _ _ h]
      exact .none
  have left : repeated.withoutSuperseded = c := rfl
  obtain ⟨report, after, h⟩ := exists_outcome x source 1 c {}
  obtain ⟨report', after', h'⟩ := exists_outcome x source 1 backwards {}
  obtain ⟨report'', after'', h''⟩ := exists_outcome x source 1 repeated {}
  have own : x.MayReport source 1 c report := ⟨_, _, h⟩
  obtain rfl := rearranged c backwards distinct reversed report report' own ⟨_, _, h'⟩
  obtain rfl := superseded repeated report'' report ⟨_, _, h''⟩ (left ▸ own)
  refine ⟨_, own, ⟨_, _, h'⟩, ⟨_, _, h''⟩, ?_⟩
  rw [(one c _).1 own]
  constructor
  · decide +kernel
  · decide +kernel

end Indexer

end VaultIndex
