import Mathlib.Data.List.Nodup
import VaultIndex.Proofs.Consultations

/-!
# The calls of a forward APY

Which calls to its oracle the forward APY of a vault takes, in which order, and what is counted
meanwhile. The vault itself is asked about first, then its strategies (`Vault.Consults`).
-/

namespace VaultIndex

open Numbered (number)

variable {σ : Type}

/-! ### The order of strategies -/

/-- Strategies with different addresses are put in strictly ascending order. -/
lemma pairwise_orderedStrategies {strategies : List Strategy}
    (keyed : (strategies.map (·.address)).Nodup) :
    (orderedStrategies strategies).Pairwise fun x y => number x.address < number y.address := by
  have ascending : (orderedStrategies strategies).Pairwise fun x y =>
      number x.address ≤ number y.address := by
    refine (List.pairwise_mergeSort ?_ ?_ strategies).imp fun h => of_decide_eq_true h
    · intro x y z hxy hyz
      exact decide_eq_true (Nat.le_trans (of_decide_eq_true hxy) (of_decide_eq_true hyz))
    · intro x y
      rw [Bool.or_eq_true, decide_eq_true_iff, decide_eq_true_iff]
      exact Nat.le_total _ _
  have apart : (orderedStrategies strategies).Pairwise fun x y => x.address ≠ y.address :=
    List.pairwise_map.1 (((orderedStrategies_perm strategies).map _).nodup_iff.2 keyed)
  refine (ascending.and apart).imp ?_
  rintro x y ⟨hle, hne⟩
  exact Nat.lt_of_le_of_ne hle fun h => hne (Numbered.number_inj h)

/-- The order of strategies is the one in which their addresses strictly ascend. -/
lemma orderedStrategies_eq {strategies ordered : List Strategy} (h : strategies.Perm ordered)
    (ascending : ordered.Pairwise fun x y => number x.address < number y.address) :
    orderedStrategies strategies = ordered := by
  have distinct : (ordered.map (·.address)).Nodup :=
    List.pairwise_map.2 (ascending.imp fun hlt same => Nat.ne_of_lt hlt (congrArg number same))
  have keyed : (strategies.map (·.address)).Nodup := (h.map _).nodup_iff.2 distinct
  apply List.Perm.eq_of_pairwise _ (pairwise_orderedStrategies keyed) ascending
  · exact (orderedStrategies_perm strategies).trans h
  · intro s t _ _ hst hts
    exact absurd hst (Nat.lt_asymm hts)

lemma orderedStrategies_eq_of_perm {strategies listed : List Strategy}
    (keyed : (strategies.map (·.address)).Nodup) (h : listed.Perm strategies) :
    orderedStrategies listed = orderedStrategies strategies :=
  orderedStrategies_eq (h.trans (orderedStrategies_perm strategies).symm)
    (pairwise_orderedStrategies keyed)

lemma forwardApy_eq_of_perm {m : Type → Type} [Monad m] (registry : ChainRegistry)
    (source : ChainSource m) (v : Vault) {strategies listed : List Strategy}
    (keyed : (strategies.map (·.address)).Nodup) (h : listed.Perm strategies) :
    forwardApy registry source v listed = forwardApy registry source v strategies := by
  have ordered := orderedStrategies_eq_of_perm keyed h
  simp only [forwardApy, strategiesApr, debtRatioApr, ordered]

/-! ### Calls about strategies -/

/-- The calls about strategies that the forward APY of a vault takes. They stand in strictly
ascending order of addresses. For a vault with deposits they are about all strategies with an
allocation, for a vault without deposits about all those before which none is answered for. -/
structure Vault.Consults (v : Vault) (strategies : List Strategy) (asked : List Consultation) :
    Prop where
  ascending : asked.Pairwise fun c d => number c.strategy.address < number d.strategy.address
  known : ∀ c ∈ asked, c.strategy ∈ strategies
  alone : v.kind ≠ .multiple → asked = []
  with_deposits : v.kind = .multiple → v.isEmpty = false → ∀ x ∈ strategies,
    x ∈ asked.map (·.strategy) ↔ ∃ debtRatio, x.lastDebtRatio = some debtRatio ∧ debtRatio ≠ 0
  without_deposits : v.kind = .multiple → v.isEmpty = true → ∀ x ∈ strategies,
    x ∈ asked.map (·.strategy) ↔
      ∀ c ∈ asked, number c.strategy.address < number x.address → c.failed = true

namespace Strategy

lemma isSome_activeDebtRatio (x : Strategy) :
    x.activeDebtRatio.isSome = true ↔
      ∃ debtRatio, x.lastDebtRatio = some debtRatio ∧ debtRatio ≠ 0 := by
  cases h : x.lastDebtRatio <;> simp [activeDebtRatio, h, Option.filter]

end Strategy

namespace Vault.Consults

variable {v : Vault} {strategies : List Strategy} {asked : List Consultation}

/-- Consultations in the order of the strategies stand in ascending order, about strategies of the
vault. -/
lemma of_sublist (keyed : (strategies.map (·.address)).Nodup)
    (h : (asked.map (·.strategy)).Sublist (orderedStrategies strategies)) :
    (asked.Pairwise fun c d => number c.strategy.address < number d.strategy.address) ∧
      ∀ c ∈ asked, c.strategy ∈ strategies := by
  constructor
  · have sorted := (pairwise_orderedStrategies keyed).sublist h
    rwa [List.pairwise_map] at sorted
  · intro c hc
    exact (orderedStrategies_perm strategies).subset (h.subset (List.mem_map_of_mem hc))

lemma of_single (h : v.kind ≠ .multiple) : v.Consults strategies [] where
  ascending := .nil
  known := by simp
  alone _ := rfl
  with_deposits hm := absurd hm h
  without_deposits hm := absurd hm h

lemma of_firstAnswer (keyed : (strategies.map (·.address)).Nodup) (hm : v.kind = .multiple)
    (hv : v.isEmpty = true) {apr : Decimal}
    (h : DebtRatio.FirstAnswer (orderedStrategies strategies) asked apr) :
    v.Consults strategies asked where
  ascending := (of_sublist keyed h.sublist).1
  known := (of_sublist keyed h.sublist).2
  alone hs := absurd hm hs
  with_deposits _ hv' := by simp [hv] at hv'
  without_deposits _ _ x hx :=
    h.asked_iff (pairwise_orderedStrategies keyed) x ((orderedStrategies_perm _).mem_iff.2 hx)

lemma of_weighted (keyed : (strategies.map (·.address)).Nodup) (hm : v.kind = .multiple)
    (hv : v.isEmpty = false) {sum apr : Decimal}
    (h : DebtRatio.Weighted (orderedStrategies strategies) sum asked apr) :
    v.Consults strategies asked := by
  have part : (asked.map (·.strategy)).Sublist (orderedStrategies strategies) := by
    rw [h.map_strategy]
    exact List.filter_sublist
  refine ⟨(of_sublist keyed part).1, (of_sublist keyed part).2, fun hs => absurd hm hs, ?_, ?_⟩
  · intro _ _ x hx
    rw [h.map_strategy, List.mem_filter, Strategy.isSome_activeDebtRatio]
    exact and_iff_right ((orderedStrategies_perm _).mem_iff.2 hx)
  · intro _ hv'
    simp [hv] at hv'

end Vault.Consults

/-! ### A whole forward APY -/

/-- The APR of a vault by its strategies takes the calls about strategies, and each failed one is
counted. -/
lemma strategiesApr_journaled (a : OracleAdapter (StateM σ)) (v : Vault)
    {strategies : List Strategy} (keyed : (strategies.map (·.address)).Nodup) (t : Tally)
    (j : List OracleExchange) (s : σ) :
    ∃ asked apr s', v.Consults strategies asked ∧
      strategiesApr a.journaled v strategies t j s =
        (((apr, t.addOnes (.strategyAprFailures a.chain) (asked.countP (·.failed))),
          j ++ asked.map (·.exchange)), s') := by
  by_cases hm : v.kind = .multiple
  · cases hv : v.isEmpty with
    | true =>
      obtain ⟨asked, apr, s', h, run⟩ :=
        DebtRatio.firstApr_journaled a t j s (orderedStrategies strategies)
      refine ⟨asked, apr, s', .of_firstAnswer keyed hm hv h, ?_⟩
      simp only [strategiesApr, hm, debtRatioApr, hv, if_true]
      exact run
    | false =>
      obtain ⟨asked, apr, s', h, run⟩ :=
        DebtRatio.weightedSum_journaled a t j s (orderedStrategies strategies) .zero
      refine ⟨asked, apr * haircut, s', .of_weighted keyed hm hv h, ?_⟩
      simp only [strategiesApr, hm, debtRatioApr, hv]
      rw [if_neg Bool.false_ne_true, Consulting.bind_run, run]
      rfl
  · refine ⟨[], .zero, s, .of_single hm, ?_⟩
    rw [List.map_nil, List.append_nil, strategiesApr]
    cases hk : v.kind with
    | multiple => exact absurd hk hm
    | single => rfl
    | legacy => rfl

section Chains

variable {registry : ChainRegistry} {source : ChainSource (StateM σ)}
  {oracle : AprOracle (StateM σ)} {address : Address} {s reached : σ}

lemma connect?_run {chain : ChainId}
    (deployed : (registry.get? chain).bind ChainConfig.aprOracle? = some address)
    (had : source.aprOracle chain address s = (.ok oracle, reached)) (t : Tally) :
    OracleAdapter.connect? registry source chain t s = ((some ⟨chain, oracle⟩, t), reached) := by
  simp only [OracleAdapter.connect?, deployed]
  rw [Activity.bind_run, Activity.outside_run, had]
  rfl

/-- A forward APY takes a call about its vault, a second one exactly if the first reply is a failure
or zero, and then the calls about strategies. Second calls about vaults and failed calls about
strategies are counted, and nothing else is. -/
theorem forwardApy_calls {v : Vault} {strategies : List Strategy}
    (deployed : (registry.get? v.chainId).bind ChainConfig.aprOracle? = some address)
    (had : source.aprOracle v.chainId address s = (.ok oracle, reached))
    (keyed : (strategies.map (·.address)).Nodup) (tally : Tally) (journal : List OracleExchange) :
    let run := forwardApy registry source.journaled v strategies tally journal s
    forwardApy registry source v strategies tally s = (run.1.1, run.2) ∧
    ∃ first second asked,
      run.1.2 = journal ++ ⟨.strategyApr v.address 0, first⟩ ::
        (Option.toList second).map (⟨.currentApr v.address, ·⟩) ++ asked.map (·.exchange) ∧
      (second.isSome ↔ ∀ n, first = .ok n → n = 0) ∧
      v.Consults strategies asked ∧
      run.1.1.2.total (.oracleFallbacks v.chainId) =
        tally.total (.oracleFallbacks v.chainId) + (if second.isSome then 1 else 0) ∧
      run.1.1.2.total (.strategyAprFailures v.chainId) =
        tally.total (.strategyAprFailures v.chainId) + asked.countP (·.failed) ∧
      ∀ c, c ≠ .oracleFallbacks v.chainId → c ≠ .strategyAprFailures v.chainId →
        run.1.1.2.total c = tally.total c := by
  obtain ⟨first, second, oracleApr, s₁, replies, run₁⟩ :=
    vaultApr_journaled ⟨v.chainId, oracle⟩ tally journal reached v.address
  obtain ⟨asked, debtRatioApr, s₂, consults, run₂⟩ := strategiesApr_journaled ⟨v.chainId, oracle⟩ v
    keyed (tally.addOnes (.oracleFallbacks v.chainId) second.toList.length)
    (journal ++ ⟨.strategyApr v.address 0, first⟩ ::
      second.toList.map (⟨.currentApr v.address, ·⟩)) s₁
  have run : forwardApy registry source.journaled v strategies tally journal s =
      (((ForwardApy.ofAprs v oracleApr debtRatioApr,
          (tally.addOnes (.oracleFallbacks v.chainId) second.toList.length).addOnes
            (.strategyAprFailures v.chainId) (asked.countP (·.failed))),
        journal ++ ⟨.strategyApr v.address 0, first⟩ ::
          second.toList.map (⟨.currentApr v.address, ·⟩) ++ asked.map (·.exchange)), s₂) := by
    rw [forwardApy, Consulting.bind_run, Observes.connect?, connect?_run deployed had]
    simp only [Option.map_some]
    rw [Consulting.bind_run, run₁, Consulting.bind_run, run₂]
    rfl
  have same : forwardApy registry source v strategies tally s = _ :=
    Observes.forwardApy v strategies tally journal s
  rw [run] at same ⊢
  refine ⟨same, first, second, asked, rfl, replies.isSome_second, consults, ?_, ?_, ?_⟩
  · rw [Tally.total_addOnes_ne _ _ _ _ (by simp), Tally.total_addOnes_self]
    cases second <;> rfl
  · rw [Tally.total_addOnes_self, Tally.total_addOnes_ne _ _ _ _ (by simp)]
  · intro c hf hs
    rw [Tally.total_addOnes_ne _ _ _ _ (Ne.symm hs), Tally.total_addOnes_ne _ _ _ _ (Ne.symm hf)]

end Chains

/-- An oracle that answers by the number of earlier calls: the vault is asked about twice, the first
strategy in vain, the second one with success, and the third one not at all. -/
theorem forwardApy_calls_of_counting_oracle :
    let config : ChainConfig := ⟨1, "Ethereum", default, ⟨7⟩, 100000, 30⟩
    let registry : ChainRegistry := ⟨.ofList [(1, config)]⟩
    let replies : List (Except ChainError U256) :=
      [.ok 0, .ok 5, .error (.rpc "eth_call" "reverted"), .ok 3]
    let oracle : AprOracle (StateM Nat) := fun _ calls => (replies.getD calls (.ok 0), calls + 1)
    let source : ChainSource (StateM Nat) :=
      ⟨fun chain => return .error (.unknownChain chain), fun _ _ => return .ok oracle⟩
    let v : Vault := { Vault.new 1 ⟨10⟩ "3.0.0" with kind := .multiple }
    let strategies : List Strategy := [.new ⟨13⟩ ⟨10⟩, .new ⟨12⟩ ⟨10⟩, .new ⟨11⟩ ⟨10⟩]
    let run := forwardApy registry source.journaled v strategies {} [] 0
    (∃ asked, v.Consults strategies asked ∧
      run.1.1.2.total (.strategyAprFailures 1) = asked.countP (·.failed)) ∧
    run.1.2.map (·.call) =
      [.strategyApr ⟨10⟩ 0, .currentApr ⟨10⟩, .strategyApr ⟨11⟩ 0, .strategyApr ⟨12⟩ 0] := by
  intro config registry replies oracle source v strategies run
  constructor
  · have deployed : (registry.get? v.chainId).bind ChainConfig.aprOracle? = some ⟨7⟩ := rfl
    have had : source.aprOracle v.chainId ⟨7⟩ 0 = (.ok oracle, 0) := rfl
    have keyed : (strategies.map (·.address)).Nodup := by decide
    obtain ⟨-, first, second, asked, -, -, consults, -, failures, -⟩ :=
      forwardApy_calls deployed had keyed {} []
    exact ⟨asked, consults, failures.trans (Nat.zero_add _)⟩
  · have sorted : orderedStrategies strategies =
        [.new ⟨11⟩ ⟨10⟩, .new ⟨12⟩ ⟨10⟩, .new ⟨13⟩ ⟨10⟩] :=
      orderedStrategies_eq (by decide) (by decide)
    simp only [run, forwardApy, strategiesApr, debtRatioApr, sorted]
    rfl

end VaultIndex
