import Mathlib.Data.List.MinMax
import Mathlib.Tactic.GCongr
import Mathlib.Tactic.Linarith
import VaultIndex.Proofs.DebtRatios

/-!
# How large weighted APRs are

Where a vault with deposits lends out no more than all of them and fees take no more than all gains,
its APR by debt ratios is at most nine tenths of the best APR that is answered for
(`debtRatioApr_le_best`).
-/

namespace VaultIndex

variable {σ : Type}

/-! ### The best APR -/

namespace Consultation

/-- The APR that was answered, as a number. -/
def apr? (c : Consultation) : Option ℚ := c.reply.toOption.map fun n => n.toNat / 10 ^ 18

/-- The largest APR that was answered; zero where none was. -/
def bestApr (asked : List Consultation) : ℚ := (asked.filterMap apr?).maximum.unbotD 0

variable {asked : List Consultation} {c : Consultation}

lemma le_bestApr {n : U256} (hc : c ∈ asked) (answered : c.reply = .ok n) :
    (n.toNat : ℚ) / 10 ^ 18 ≤ bestApr asked := by
  have member : (n.toNat : ℚ) / 10 ^ 18 ∈ asked.filterMap apr? := by
    refine List.mem_filterMap.2 ⟨c, hc, ?_⟩
    rw [apr?, answered]
    rfl
  exact WithBot.le_unbotD (List.le_maximum_of_mem' member)

lemma bestApr_nonneg (asked : List Consultation) : 0 ≤ bestApr asked := by
  cases largest : (asked.filterMap apr?).maximum with
  | bot => rw [bestApr, largest, WithBot.unbotD_bot]
  | coe best =>
    rw [bestApr, largest, WithBot.unbotD_coe]
    obtain ⟨c, -, answered⟩ := List.mem_filterMap.1 (List.maximum_mem largest)
    obtain ⟨n, -, rfl⟩ := Option.map_eq_some_iff.1 answered
    positivity

end Consultation

/-! ### Bounds -/

namespace Strategy

lemma kept_nonneg {x : Strategy} (fee : x.lastPerformanceFee.toNat ≤ 10000) :
    0 ≤ 1 - (x.lastPerformanceFee.toNat : ℚ) / 10 ^ 4 := by
  rw [sub_nonneg, div_le_one (by norm_num)]
  exact_mod_cast fee

/-- What a strategy adds lies between nothing and the APR on its share, where its fee takes no more
than all gains. -/
lemma contribution_bounds {x : Strategy} (fee : x.lastPerformanceFee.toNat ≤ 10000)
    {n : U256} {best : ℚ} (bounded : (n.toNat : ℚ) / 10 ^ 18 ≤ best) (debtRatio : U256) :
    0 ≤ (x.contribution (normalizedApr n) debtRatio).value ∧
      (x.contribution (normalizedApr n) debtRatio).value ≤ best * (debtRatio.toNat / 10 ^ 4) := by
  have kept := kept_nonneg fee
  have most : 1 - (x.lastPerformanceFee.toNat : ℚ) / 10 ^ 4 ≤ 1 := sub_le_self _ (by positivity)
  simp only [contribution, Decimal.value_mul, value_normalizedApr, value_ratio,
    value_feeMultiplier]
  constructor
  · positivity
  · calc (n.toNat : ℚ) / 10 ^ 18 * (debtRatio.toNat / 10 ^ 4) *
          (1 - x.lastPerformanceFee.toNat / 10 ^ 4)
        ≤ (n.toNat : ℚ) / 10 ^ 18 * (debtRatio.toNat / 10 ^ 4) * 1 := by gcongr
      _ ≤ best * (debtRatio.toNat / 10 ^ 4) := by rw [mul_one]; gcongr

end Strategy

namespace DebtRatio

/-- The sum of the debt ratios of strategies with an allocation. -/
def allocated (l : List Strategy) : Nat :=
  ((l.filterMap (·.activeDebtRatio)).map (·.toNat)).sum

lemma allocated_perm {l k : List Strategy} (h : l.Perm k) : allocated l = allocated k :=
  ((h.filterMap _).map _).sum_eq

variable {l : List Strategy} {sum apr : Decimal} {asked : List Consultation}

lemma allocated_cons {x : Strategy} {debtRatio : U256} (h : x.activeDebtRatio = some debtRatio) :
    allocated (x :: l) = debtRatio.toNat + allocated l := by
  rw [allocated, List.filterMap_cons, h]
  rfl

/-- Each strategy that is answered for raises the sum by no more than the best APR on its share. -/
lemma Weighted.bounds (h : Weighted l sum asked apr)
    (fees : ∀ x ∈ l, x.activeDebtRatio.isSome = true → x.lastPerformanceFee.toNat ≤ 10000)
    {best : ℚ} (nonneg : 0 ≤ best)
    (bounded : ∀ c ∈ asked, ∀ n, c.reply = .ok n → (n.toNat : ℚ) / 10 ^ 18 ≤ best) :
    sum.value ≤ apr.value ∧ apr.value ≤ sum.value + best * (allocated l / 10 ^ 4) := by
  induction h with
  | nobody sum => simp [allocated]
  | idle x unallocated later ih =>
    have fewer := ih (List.forall_mem_cons.1 fees).2 bounded
    rwa [allocated, List.filterMap_cons, unallocated]
  | @answered x n debtRatio rest sum apr asked allocation later ih =>
    obtain ⟨fee, fees⟩ := List.forall_mem_cons.1 fees
    obtain ⟨first, bounded⟩ := List.forall_mem_cons.1 bounded
    obtain ⟨lower, upper⟩ := ih fees bounded
    obtain ⟨gain, most⟩ := Strategy.contribution_bounds (fee (by rw [allocation]; rfl))
      (first n rfl) debtRatio
    rw [Decimal.value_add] at lower upper
    rw [allocated_cons allocation]
    push_cast
    constructor
    · linarith
    · calc apr.value ≤ _ := upper
        _ ≤ sum.value + best * (debtRatio.toNat / 10 ^ 4) + best * (allocated rest / 10 ^ 4) := by
          gcongr
        _ = sum.value + best * ((debtRatio.toNat + allocated rest) / 10 ^ 4) := by ring
  | @failed x cause debtRatio rest sum apr asked allocation later ih =>
    obtain ⟨lower, upper⟩ :=
      ih (List.forall_mem_cons.1 fees).2 (List.forall_mem_cons.1 bounded).2
    refine ⟨lower, upper.trans ?_⟩
    rw [allocated_cons allocation]
    gcongr
    exact Nat.le_add_left _ _

end DebtRatio

/-- The APR by debt ratios of a vault with deposits lies between zero and nine tenths of the best
APR that its strategies with an allocation are answered for, whatever the oracle replies, if the
debt ratios come to no more than all deposits and the fees of those strategies to no more than all
gains. -/
theorem debtRatioApr_le_best (a : OracleAdapter (StateM σ)) {v : Vault} {assets : Decimal}
    (known : v.lastTotalAssets = some assets) (deposits : assets.value ≠ 0)
    {strategies : List Strategy} (covered : DebtRatio.allocated strategies ≤ 10000)
    (fees : ∀ x ∈ strategies,
      x.activeDebtRatio.isSome = true → x.lastPerformanceFee.toNat ≤ 10000)
    (t : Tally) (s : σ) :
    let run := debtRatioApr a.journaled v strategies t [] s
    debtRatioApr a v strategies t s = (run.1.1, run.2) ∧
    ∃ asked : List Consultation,
      asked.map (·.strategy) = (orderedStrategies strategies).filter (·.activeDebtRatio.isSome) ∧
      run.1.2 = asked.map (·.exchange) ∧
      0 ≤ run.1.1.1.value ∧ run.1.1.1.value ≤ 9 / 10 * Consultation.bestApr asked := by
  intro run
  obtain ⟨asked, sum, s', course, ran⟩ :=
    debtRatioApr_journaled (Vault.isEmpty_eq_false known deposits) a strategies t [] s
  replace ran : run = _ := ran
  refine ⟨observes_debtRatioApr a v strategies t [] s, asked, course.map_strategy, ?_, ?_⟩
  · rw [ran, List.nil_append]
  have same := orderedStrategies_perm strategies
  have nonneg := Consultation.bestApr_nonneg asked
  obtain ⟨lower, upper⟩ := course.bounds (fun x hx => fees x (same.subset hx)) nonneg
    fun c hc n answered => Consultation.le_bestApr hc answered
  rw [Decimal.value_zero] at lower upper
  have share : (DebtRatio.allocated (orderedStrategies strategies) : ℚ) / 10 ^ 4 ≤ 1 := by
    rw [DebtRatio.allocated_perm same, div_le_one (by norm_num)]
    exact_mod_cast covered
  have most : sum.value ≤ Consultation.bestApr asked := by
    calc sum.value ≤ _ := upper
      _ ≤ 0 + Consultation.bestApr asked * 1 := by gcongr
      _ = Consultation.bestApr asked := by rw [zero_add, mul_one]
  rw [ran, Decimal.value_mul, value_haircut, mul_comm]
  constructor
  · positivity
  · gcongr

/-- Two strategies have all deposits, of which the oracle does not answer for one, and a third one
has none and takes twice its gains as fee. -/
theorem debtRatioApr_le_best_of_one_answer :
    let replies : List (Except ChainError U256) :=
      [.ok 100000000000000000, .error (.rpc "eth_call" "reverted")]
    let a : OracleAdapter (StateM Nat) :=
      ⟨1, fun _ calls => (replies.getD calls (.ok 0), calls + 1)⟩
    let v : Vault := { Vault.new 1 ⟨10⟩ "3.0.0" with
      kind := .multiple, lastTotalAssets := some (.ofInt 1000) }
    let strategies : List Strategy :=
      [⟨⟨13⟩, ⟨10⟩, some 4000, 0⟩, ⟨⟨12⟩, ⟨10⟩, some 0, 20000⟩, ⟨⟨11⟩, ⟨10⟩, some 6000, 1000⟩]
    let run := debtRatioApr a.journaled v strategies {} [] 0
    DebtRatio.allocated strategies = 10000 ∧ run.1.1.1.value = 486 / 10000 ∧
      run.1.1.1.value ≤ 9 / 10 * (1 / 10) := by
  intro replies a v strategies run
  have sorted : orderedStrategies strategies =
      [⟨⟨11⟩, ⟨10⟩, some 6000, 1000⟩, ⟨⟨12⟩, ⟨10⟩, some 0, 20000⟩, ⟨⟨13⟩, ⟨10⟩, some 4000, 0⟩] :=
    orderedStrategies_eq (by decide) (by decide)
  have known : v.lastTotalAssets = some (.ofInt 1000) := rfl
  have fees : ∀ x ∈ strategies,
      x.activeDebtRatio.isSome = true → x.lastPerformanceFee.toNat ≤ 10000 := by decide
  have covered : DebtRatio.allocated strategies = 10000 := by decide
  obtain ⟨-, asked, -, journal, -, bounded⟩ :=
    debtRatioApr_le_best a known (by simp) (Nat.le_of_eq covered) fees {} 0
  have replied : asked.map (·.reply) = replies := by
    have exchanged := congrArg (List.map (·.reply)) journal
    simp only [debtRatioApr, sorted] at exchanged
    rw [List.map_map] at exchanged
    exact exchanged.symm
  have answered : asked.filterMap Consultation.apr? = [1 / 10] := by
    have read := List.filterMap_map (f := (·.reply))
      (g := fun r => r.toOption.map fun n => (n.toNat : ℚ) / 10 ^ 18) (l := asked)
    rw [replied] at read
    refine read.symm.trans ?_
    decide +kernel
  have best : Consultation.bestApr asked = 1 / 10 := by
    rw [Consultation.bestApr, answered, List.maximum_singleton, WithBot.unbotD_coe]
  rw [best] at bounded
  refine ⟨covered, ?_, bounded⟩
  simp only [run, debtRatioApr, sorted]
  decide +kernel

end VaultIndex
