import Mathlib.Algebra.BigOperators.Group.List.Basic
import VaultIndex.Proofs.DecimalValues
import VaultIndex.Proofs.Listings

/-!
# The APR by debt ratios

The APR of a vault with deposits is nine tenths of the sum of what its strategies gain on their
shares, as a number and without rounding. A strategy without an allocation is left out as if it were
not there, and one about which the oracle does not answer adds nothing (`debtRatioApr_value`).
-/

namespace VaultIndex

variable {σ : Type}

@[simp] lemma value_normalizedApr (n : U256) : (normalizedApr n).value = n.toNat / 10 ^ 18 := by
  simp [normalizedApr, aprDecimals]

@[simp] lemma value_ratio (n : U256) : (ratio n).value = n.toNat / 10 ^ 4 := by
  simp [ratio, ratioDecimals]

@[simp] lemma value_haircut : haircut.value = 9 / 10 := by norm_num [haircut, Decimal.value_eq]

namespace Strategy

@[simp] lemma value_feeMultiplier (x : Strategy) :
    x.feeMultiplier.value = 1 - x.lastPerformanceFee.toNat / 10 ^ 4 := by
  simp [feeMultiplier]

/-- What a strategy gains for its vault, as a number; `none` for a strategy without an allocation
and where its APR is not known. -/
def gain? (x : Strategy) (reply : Except ChainError U256) : Option ℚ := do
  let debtRatio ← x.activeDebtRatio
  let apr ← reply.toOption
  return apr.toNat / 10 ^ 18 * (debtRatio.toNat / 10 ^ 4) *
    (1 - x.lastPerformanceFee.toNat / 10 ^ 4)

variable {x : Strategy} {debtRatio : U256}

lemma gain?_of_idle (h : x.activeDebtRatio = none) (reply : Except ChainError U256) :
    x.gain? reply = none := by
  rw [gain?, h]
  rfl

lemma gain?_of_error (x : Strategy) (cause : ChainError) : x.gain? (.error cause) = none := by
  rw [gain?]
  cases x.activeDebtRatio <;> rfl

/-- The decimal that a strategy adds is exactly its gain. -/
lemma gain?_eq_some (h : x.activeDebtRatio = some debtRatio) (apr : U256) :
    x.gain? (.ok apr) = some (x.contribution (normalizedApr apr) debtRatio).value := by
  rw [gain?, h]
  simp [contribution, Except.toOption]

end Strategy

namespace DebtRatio

/-- Where no strategy is asked about twice, replies can be told apart by addresses. -/
lemma exists_reply {asked : List Consultation}
    (keyed : (asked.map (·.strategy.address)).Nodup) :
    ∃ reply : Address → Except ChainError U256,
      ∀ c ∈ asked, c.reply = reply c.strategy.address := by
  induction asked with
  | nil => exact ⟨fun _ => .ok 0, List.forall_mem_nil _⟩
  | cons c rest ih =>
    rw [List.map_cons, List.nodup_cons] at keyed
    obtain ⟨reply, replies⟩ := ih keyed.2
    refine ⟨Function.update reply c.strategy.address c.reply, List.forall_mem_cons.2 ⟨?_, ?_⟩⟩
    · rw [Function.update_self]
    · intro d hd
      have other : d.strategy.address ≠ c.strategy.address := fun same =>
        keyed.1 (same ▸ List.mem_map_of_mem hd)
      rw [Function.update_of_ne other, replies d hd]

variable {l : List Strategy} {sum apr : Decimal} {asked : List Consultation}

/-- The sum that is come to is exactly the sum of all gains. -/
lemma Weighted.value_eq (h : Weighted l sum asked apr) {reply : Address → Except ChainError U256}
    (replies : ∀ c ∈ asked, c.reply = reply c.strategy.address) :
    apr.value = sum.value + (l.filterMap fun x => x.gain? (reply x.address)).sum := by
  induction h with
  | nobody sum => simp
  | idle x unallocated later ih =>
    rw [ih replies, List.filterMap_cons, Strategy.gain?_of_idle unallocated]
  | answered x n allocated later ih =>
    obtain ⟨replied, replies⟩ := List.forall_mem_cons.1 replies
    rw [ih replies, List.filterMap_cons, ← replied, Strategy.gain?_eq_some allocated,
      List.sum_cons, Decimal.value_add, add_assoc]
  | failed x cause allocated later ih =>
    obtain ⟨replied, replies⟩ := List.forall_mem_cons.1 replies
    rw [ih replies, List.filterMap_cons, ← replied, Strategy.gain?_of_error]

/-- Of strategies with different addresses none is asked about twice. -/
lemma Weighted.nodup_asked (h : Weighted l sum asked apr) (keyed : (l.map (·.address)).Nodup) :
    (asked.map (·.strategy.address)).Nodup := by
  have distinct : ((l.filter (·.activeDebtRatio.isSome)).map (·.address)).Nodup :=
    keyed.sublist (List.filter_sublist.map _)
  rwa [← h.map_strategy, List.map_map] at distinct

/-- Of strategies with different addresses, those with an allocation are asked about once each. -/
lemma Weighted.exists_gains (h : Weighted l .zero asked sum)
    (keyed : (l.map (·.address)).Nodup) :
    ∃ reply : Address → Except ChainError U256,
      asked.map (·.exchange) = (l.filter (·.activeDebtRatio.isSome)).map (fun x =>
        ⟨.strategyApr x.address 0, reply x.address⟩) ∧
      sum.value = (l.filterMap fun x => x.gain? (reply x.address)).sum := by
  obtain ⟨reply, replies⟩ := exists_reply (h.nodup_asked keyed)
  refine ⟨reply, ?_, ?_⟩
  · rw [← h.map_strategy, List.map_map]
    refine List.map_congr_left fun c hc => ?_
    rw [Consultation.exchange, replies c hc]
    rfl
  · rw [h.value_eq replies, Decimal.value_zero, zero_add]

/-- A strategy without an allocation may be left out. -/
lemma weightedSum_filter {m : Type → Type} [Monad m] (a : OracleAdapter m) (l : List Strategy)
    (sum : Decimal) :
    weightedSum a (l.filter (·.activeDebtRatio.isSome)) sum = weightedSum a l sum := by
  induction l generalizing sum with
  | nil => rfl
  | cons x rest ih =>
    cases allocation : x.activeDebtRatio with
    | none =>
      rw [List.filter_cons_of_neg (by simp [allocation]), ih, weightedSum, allocation]
    | some debtRatio =>
      rw [List.filter_cons_of_pos (by simp [allocation]), weightedSum, weightedSum, allocation]
      simp only [ih]

end DebtRatio

variable {strategies : List Strategy}

lemma nodup_orderedStrategies (keyed : (strategies.map (·.address)).Nodup) :
    ((orderedStrategies strategies).map (·.address)).Nodup :=
  ((orderedStrategies_perm strategies).map _).nodup_iff.2 keyed

lemma orderedStrategies_filter (keyed : (strategies.map (·.address)).Nodup)
    (p : Strategy → Bool) :
    orderedStrategies (strategies.filter p) = (orderedStrategies strategies).filter p :=
  orderedStrategies_eq ((orderedStrategies_perm strategies).filter p).symm
    ((pairwise_orderedStrategies keyed).filter p)

lemma observes_debtRatioApr (a : OracleAdapter (StateM σ)) (v : Vault)
    (strategies : List Strategy) :
    Observes (debtRatioApr a.journaled v strategies) (debtRatioApr a v strategies) :=
  Observes.isCongruence.debtRatioApr v ⟨rfl, fun _ _ => (Observes.related a).ask _⟩

/-- A vault is without deposits where its total assets are unknown or zero as a number. -/
lemma Vault.isEmpty_iff {v : Vault} :
    v.isEmpty = true ↔ ∀ assets, v.lastTotalAssets = some assets → assets.value = 0 := by
  simp only [isEmpty, Option.all_eq_true, Decimal.isZero_iff]

lemma Vault.isEmpty_eq_false {v : Vault} {assets : Decimal}
    (known : v.lastTotalAssets = some assets) (deposits : assets.value ≠ 0) :
    v.isEmpty = false := by
  rw [← Bool.not_eq_true, isEmpty_iff]
  exact fun none => deposits (none assets known)

section Deposits

variable {v : Vault} (full : v.isEmpty = false)

include full

lemma debtRatioApr_of_deposits {m : Type → Type} [Monad m] (a : OracleAdapter m)
    (strategies : List Strategy) :
    debtRatioApr a v strategies = do
      return (← DebtRatio.weightedSum a (orderedStrategies strategies) .zero) * haircut := by
  rw [debtRatioApr, full, if_neg Bool.false_ne_true]

lemma debtRatioApr_filter {m : Type → Type} [Monad m] (a : OracleAdapter m)
    (keyed : (strategies.map (·.address)).Nodup) :
    debtRatioApr a v (strategies.filter (·.activeDebtRatio.isSome)) =
      debtRatioApr a v strategies := by
  rw [debtRatioApr_of_deposits full, debtRatioApr_of_deposits full, orderedStrategies_filter keyed,
    DebtRatio.weightedSum_filter]

lemma debtRatioApr_journaled (a : OracleAdapter (StateM σ)) (strategies : List Strategy) (t : Tally)
    (j : List OracleExchange) (s : σ) :
    ∃ asked sum s', DebtRatio.Weighted (orderedStrategies strategies) .zero asked sum ∧
      debtRatioApr a.journaled v strategies t j s =
        (((sum * haircut, t.addOnes (.strategyAprFailures a.chain) (asked.countP (·.failed))),
          j ++ asked.map (·.exchange)), s') := by
  obtain ⟨asked, sum, s', consulted, summed⟩ :=
    DebtRatio.weightedSum_journaled a t j s (orderedStrategies strategies) .zero
  refine ⟨asked, sum, s', consulted, ?_⟩
  rw [debtRatioApr_of_deposits full, Consulting.bind_run, summed]
  rfl

end Deposits

/-- The APR by debt ratios of a vault with deposits is nine tenths of the sum of the gains of those
strategies that have an allocation and are answered for. It is that very number, whatever the
amounts are. The strategies with an allocation are asked about once each, and the others may be left
out. -/
theorem debtRatioApr_value (a : OracleAdapter (StateM σ)) {v : Vault} {assets : Decimal}
    (known : v.lastTotalAssets = some assets) (deposits : assets.value ≠ 0)
    (keyed : (strategies.map (·.address)).Nodup) (t : Tally) (s : σ) :
    let run := debtRatioApr a.journaled v strategies t [] s
    let allocated := strategies.filter (·.activeDebtRatio.isSome)
    debtRatioApr a v strategies t s = (run.1.1, run.2) ∧
    debtRatioApr a v allocated = debtRatioApr a v strategies ∧
    ∃ reply : Address → Except ChainError U256,
      run.1.2 = (orderedStrategies allocated).map (fun x =>
        ⟨.strategyApr x.address 0, reply x.address⟩) ∧
      run.1.1.1.value =
        9 / 10 * (strategies.filterMap fun x => x.gain? (reply x.address)).sum := by
  intro run allocated
  have full := Vault.isEmpty_eq_false known deposits
  have same : debtRatioApr a v strategies t s = (run.1.1, run.2) :=
    observes_debtRatioApr a v strategies t [] s
  refine ⟨same, debtRatioApr_filter full a keyed, ?_⟩
  obtain ⟨asked, sum, s', consulted, ran⟩ := debtRatioApr_journaled full a strategies t [] s
  obtain ⟨reply, exchanges, gains⟩ := consulted.exists_gains (nodup_orderedStrategies keyed)
  have listed := (orderedStrategies_perm strategies).filterMap fun x => x.gain? (reply x.address)
  replace ran : run = _ := ran
  refine ⟨reply, ?_, ?_⟩
  · rw [ran, List.nil_append, exchanges, orderedStrategies_filter keyed]
  · rw [ran, Decimal.value_mul, value_haircut, gains, listed.sum_eq, mul_comm]

/-- Of four strategies one has a fee of one and a half times its gains, one has no allocation, and
one is not answered for. -/
theorem debtRatioApr_value_of_four_strategies :
    let replies : List (Except ChainError U256) :=
      [.ok 100000000000000000, .error (.rpc "eth_call" "reverted"), .ok 80000000000000000]
    let a : OracleAdapter (StateM Nat) :=
      ⟨1, fun _ calls => (replies.getD calls (.ok 0), calls + 1)⟩
    let v : Vault := { Vault.new 1 ⟨10⟩ "3.0.0" with lastTotalAssets := some (.ofInt 1000) }
    let strategies : List Strategy :=
      [⟨⟨14⟩, ⟨10⟩, some 4000, 2000⟩, ⟨⟨12⟩, ⟨10⟩, none, 0⟩, ⟨⟨13⟩, ⟨10⟩, some 5000, 0⟩,
        ⟨⟨11⟩, ⟨10⟩, some 6000, 15000⟩]
    let run := debtRatioApr a.journaled v strategies {} [] 0
    run.1.2.map (·.call) = [.strategyApr ⟨11⟩ 0, .strategyApr ⟨13⟩ 0, .strategyApr ⟨14⟩ 0] ∧
      run.1.1.1.value = -396 / 100000 := by
  intro replies a v strategies run
  have sorted : orderedStrategies strategies =
      [⟨⟨11⟩, ⟨10⟩, some 6000, 15000⟩, ⟨⟨12⟩, ⟨10⟩, none, 0⟩, ⟨⟨13⟩, ⟨10⟩, some 5000, 0⟩,
        ⟨⟨14⟩, ⟨10⟩, some 4000, 2000⟩] :=
    orderedStrategies_eq (by decide) (by decide)
  have asked : run.1.2 = [⟨.strategyApr ⟨11⟩ 0, .ok 100000000000000000⟩,
      ⟨.strategyApr ⟨13⟩ 0, .error (.rpc "eth_call" "reverted")⟩,
      ⟨.strategyApr ⟨14⟩ 0, .ok 80000000000000000⟩] := by
    simp only [run, debtRatioApr, sorted]
    rfl
  have known : v.lastTotalAssets = some (.ofInt 1000) := rfl
  have keyed : (strategies.map (·.address)).Nodup := by decide
  obtain ⟨-, -, reply, journal, value⟩ := debtRatioApr_value a known (by simp) keyed {} 0
  rw [orderedStrategies_filter keyed, sorted] at journal
  have replied : run.1.2.map (·.reply) = [reply ⟨11⟩, reply ⟨13⟩, reply ⟨14⟩] :=
    congrArg (List.map (·.reply)) journal
  rw [asked] at replied
  obtain ⟨eleventh, thirteenth, fourteenth, -⟩ := by
    simpa only [List.map_cons, List.cons.injEq] using replied
  have twelfth : Strategy.gain? ⟨⟨12⟩, ⟨10⟩, none, 0⟩ (reply ⟨12⟩) = none :=
    Strategy.gain?_of_idle rfl _
  have gains : strategies.filterMap (fun x => x.gain? (reply x.address)) =
      [8 / 100 * (4 / 10) * (8 / 10), 1 / 10 * (6 / 10) * (-5 / 10)] := by
    simp only [strategies, List.filterMap_cons, List.filterMap_nil, ← eleventh, twelfth,
      ← thirteenth, ← fourteenth, Strategy.gain?_of_error]
    decide +kernel
  refine ⟨by rw [asked]; rfl, value.trans ?_⟩
  rw [gains]
  norm_num

end VaultIndex
