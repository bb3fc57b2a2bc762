import VaultIndex.Proofs.WeightedAprs

/-!
# Situations of a vault

A situation holds the strategies of a vault and what the oracle has to say about each of them. It
decides the APR by debt ratios of a vault with deposits (`Yields.value_eq`). Where no strategy is
answered less, has a smaller debt ratio or a larger fee, the APR is no smaller
(`Situation.apr_le_of_noBetter`).
-/

namespace VaultIndex

open Numbered (number)

variable {σ : Type}

/-! ### Replies and gains -/

/-- A failed read counts below every answer, and a smaller answer below a larger one. -/
def AtMost (reply other : Except ChainError U256) : Prop :=
  ∀ n, reply = .ok n → ∃ m, other = .ok m ∧ n.toNat ≤ m.toNat

/-- The APR of a reply as a number; a failed read counts as zero. -/
def replyApr : Except ChainError U256 → ℚ
  | .ok n => n.toNat / 10 ^ 18
  | .error _ => 0

lemma replyApr_nonneg (reply : Except ChainError U256) : 0 ≤ replyApr reply := by
  cases reply with
  | ok n => exact div_nonneg (Nat.cast_nonneg _) (by norm_num)
  | error cause => exact le_refl 0

lemma AtMost.replyApr_le {reply other : Except ChainError U256} (h : AtMost reply other) :
    replyApr reply ≤ replyApr other := by
  cases reply with
  | error cause => exact replyApr_nonneg other
  | ok n =>
    obtain ⟨m, rfl, le⟩ := h n rfl
    rw [replyApr, replyApr]
    gcongr

namespace Strategy

variable {x y : Strategy} {debtRatio : U256}

lemma getD_lastDebtRatio_of_idle (h : x.activeDebtRatio = none) : x.lastDebtRatio.getD 0 = 0 := by
  cases ratio : x.lastDebtRatio with
  | none => rfl
  | some debtRatio =>
    rw [activeDebtRatio, ratio] at h
    simpa using h

lemma getD_lastDebtRatio (h : x.activeDebtRatio = some debtRatio) :
    x.lastDebtRatio.getD 0 = debtRatio := by
  rw [(Option.filter_eq_some_iff.1 h).1, Option.getD_some]

/-- What is left out of a sum counts as zero in it. -/
lemma getD_gain? (x : Strategy) (reply : Except ChainError U256) :
    (x.gain? reply).getD 0 = replyApr reply * ((x.lastDebtRatio.getD 0).toNat / 10 ^ 4) *
      (1 - x.lastPerformanceFee.toNat / 10 ^ 4) := by
  cases allocation : x.activeDebtRatio with
  | none =>
    rw [gain?_of_idle allocation, getD_lastDebtRatio_of_idle allocation]
    simp
  | some debtRatio =>
    rw [gain?, allocation, getD_lastDebtRatio allocation]
    cases reply with
    | ok n => rfl
    | error cause => simp [replyApr, Except.toOption]

lemma gain_le {reply other : Except ChainError U256} (replies : AtMost reply other)
    (debtRatios : (x.lastDebtRatio.getD 0).toNat ≤ (y.lastDebtRatio.getD 0).toNat)
    (fees : y.lastPerformanceFee.toNat ≤ x.lastPerformanceFee.toNat)
    (fee : x.lastPerformanceFee.toNat ≤ 10000) :
    (x.gain? reply).getD 0 ≤ (y.gain? other).getD 0 := by
  have kept := kept_nonneg fee
  have answered := replyApr_nonneg other
  have le := replies.replyApr_le
  rw [getD_gain?, getD_gain?]
  gcongr

end Strategy

/-- Strategies with what the oracle has to say about each of them. -/
structure Situation where
  strategies : List Strategy
  reply : Address → Except ChainError U256

namespace Situation

/-- What the strategies gain altogether. -/
def gains (p : Situation) : ℚ := (p.strategies.filterMap fun x => x.gain? (p.reply x.address)).sum

/-- The replies in a journal are those of a situation. -/
def Explains (p : Situation) (journal : List OracleExchange) : Prop :=
  ∀ e ∈ journal, e.reply = p.reply e.call.subject

/-- An oracle answers each call about a strategy as a situation says, whatever it was asked. -/
def Answers (p : Situation) (oracle : AprOracle (StateM σ)) : Prop :=
  ∀ x ∈ p.strategies, ∀ s, (oracle (.strategyApr x.address 0) s).1 = p.reply x.address

/-- The APRs by debt ratios that a vault can have in a situation: those of the runs in which the
oracle replies as the situation says. -/
inductive Yields (p : Situation) (v : Vault) : Decimal → Prop where
  | ran {σ : Type} (a : OracleAdapter (StateM σ)) (t : Tally) (s : σ)
      (replied : p.Explains (debtRatioApr a.journaled v p.strategies t [] s).1.2) :
      Yields p v (debtRatioApr a v p.strategies t s).1.1

/-- A situation is no better than another one about the same addresses: no strategy has a larger
reply, a larger debt ratio or a smaller fee. -/
structure NoBetter (p q : Situation) : Prop where
  addresses : ∀ address,
    address ∈ p.strategies.map (·.address) ↔ address ∈ q.strategies.map (·.address)
  replies : ∀ x ∈ p.strategies, AtMost (p.reply x.address) (q.reply x.address)
  debtRatios : ∀ x ∈ p.strategies, ∀ y ∈ q.strategies, x.address = y.address →
    (x.lastDebtRatio.getD 0).toNat ≤ (y.lastDebtRatio.getD 0).toNat
  fees : ∀ x ∈ p.strategies, ∀ y ∈ q.strategies, x.address = y.address →
    y.lastPerformanceFee.toNat ≤ x.lastPerformanceFee.toNat

/-- The situation in which further reads fail. -/
def losing (p : Situation) (lost : Address → Option ChainError) : Situation :=
  { p with reply := fun address => (lost address).elim (p.reply address) .error }

variable {p q : Situation} {v : Vault} {apr : Decimal}

/-! ### What a situation yields -/

lemma sum_gain?_orderedStrategies (p : Situation) :
    ((orderedStrategies p.strategies).filterMap fun x => x.gain? (p.reply x.address)).sum =
      p.gains :=
  ((orderedStrategies_perm p.strategies).filterMap _).sum_eq

lemma Yields.value_eq (full : v.isEmpty = false) (h : p.Yields v apr) :
    apr.value = 9 / 10 * p.gains := by
  obtain ⟨a, t, s, replied⟩ := h
  obtain ⟨asked, sum, s', course, ran⟩ := debtRatioApr_journaled full a p.strategies t [] s
  have replies : ∀ c ∈ asked, c.reply = p.reply c.strategy.address := by
    intro c hc
    rw [ran] at replied
    exact replied c.exchange (List.mem_map_of_mem hc)
  rw [observes_debtRatioApr a v p.strategies t [] s, ran]
  rw [Decimal.value_mul, value_haircut, course.value_eq replies, Decimal.value_zero, zero_add,
    sum_gain?_orderedStrategies, mul_comm]

/-- In a journal of what an oracle that answers as a situation says was asked, its replies are those
of the situation. -/
def KeepsTo (p : Situation) (α : Type) (x _y : Consulting σ α) : Prop :=
  ∀ t j s, p.Explains j → p.Explains (x t j s).1.2

lemma KeepsTo.isCongruence : Activity.IsCongruence (p.KeepsTo (σ := σ)) where
  done _ := fun _ _ _ explained => explained
  count _ _ := fun _ _ _ explained => explained
  bind {α β x y f g} hx hf := by
    intro t j s explained
    rw [Consulting.bind_run]
    exact hf _ _ _ _ (hx t j s explained)

lemma Answers.keepsTo {a : OracleAdapter (StateM σ)} (h : p.Answers a.ask) :
    OracleAdapter.RelatedAbout (p.KeepsTo) p.strategies a.journaled a.journaled where
  chain_eq := rfl
  ask x hx := by
    intro t j s explained e he
    rw [Consulting.ask_run] at he
    rcases List.mem_append.1 he with before | now
    · exact explained e before
    · rw [List.mem_singleton.1 now]
      exact h x hx s

lemma Answers.yields {a : OracleAdapter (StateM σ)} (h : p.Answers a.ask) (v : Vault) (t : Tally)
    (s : σ) : p.Yields v (debtRatioApr a v p.strategies t s).1.1 :=
  .ran a t s (KeepsTo.isCongruence.debtRatioApr v h.keepsTo t [] s (List.forall_mem_nil _))

/-- Every run is one in some situation, since no strategy is asked about twice. -/
lemma exists_yields (full : v.isEmpty = false) (a : OracleAdapter (StateM σ))
    {strategies : List Strategy} (keyed : (strategies.map (·.address)).Nodup) (t : Tally) (s : σ) :
    ∃ reply, Yields ⟨strategies, reply⟩ v (debtRatioApr a v strategies t s).1.1 := by
  obtain ⟨asked, sum, s', course, ran⟩ := debtRatioApr_journaled full a strategies t [] s
  obtain ⟨reply, replies⟩ :=
    DebtRatio.exists_reply (course.nodup_asked (nodup_orderedStrategies keyed))
  refine ⟨reply, .ran a t s ?_⟩
  rw [ran]
  intro e he
  obtain ⟨c, hc, rfl⟩ := List.mem_map.1 he
  exact replies c hc

/-! ### Comparing situations -/

/-- Strategies with the same addresses stand in the same order. -/
lemma addresses_orderedStrategies_eq (keyed : (p.strategies.map (·.address)).Nodup)
    (keyed' : (q.strategies.map (·.address)).Nodup)
    (same : ∀ address,
      address ∈ p.strategies.map (·.address) ↔ address ∈ q.strategies.map (·.address)) :
    (orderedStrategies p.strategies).map (·.address) =
      (orderedStrategies q.strategies).map (·.address) := by
  have ascending {l : List Strategy} (h : (l.map (·.address)).Nodup) :
      ((orderedStrategies l).map (·.address)).Pairwise fun a b => number a < number b :=
    List.pairwise_map.2 (pairwise_orderedStrategies h)
  refine List.Perm.eq_of_pairwise ?_ (ascending keyed) (ascending keyed') ?_
  · intro x y _ _ hxy hyx
    exact absurd hxy (Nat.lt_asymm hyx)
  · exact ((orderedStrategies_perm _).map _).trans
      (((List.perm_ext_iff_of_nodup keyed keyed').2 same).trans
        ((orderedStrategies_perm _).map _).symm)

/-- Sums over strategies with the same addresses can be compared strategy by strategy. -/
lemma sum_le_sum_of_addresses {l k : List Strategy} {f g : Strategy → ℚ}
    (same : l.map (·.address) = k.map (·.address))
    (le : ∀ x ∈ l, ∀ y ∈ k, x.address = y.address → f x ≤ g y) :
    (l.map f).sum ≤ (k.map g).sum := by
  induction l generalizing k with
  | nil =>
    obtain rfl := List.map_eq_nil_iff.1 same.symm
    exact le_refl _
  | cons x rest ih =>
    obtain ⟨y, rest', rfl, first, later⟩ := List.map_eq_cons_iff.1 same.symm
    rw [List.map_cons, List.map_cons, List.sum_cons, List.sum_cons]
    refine add_le_add (le x List.mem_cons_self y List.mem_cons_self first.symm)
      (ih later.symm fun z hz w hw => ?_)
    exact le z (List.mem_cons_of_mem x hz) w (List.mem_cons_of_mem y hw)

lemma gains_eq (p : Situation) : p.gains =
    ((orderedStrategies p.strategies).map fun x => (x.gain? (p.reply x.address)).getD 0).sum := by
  rw [← sum_gain?_orderedStrategies]
  induction orderedStrategies p.strategies with
  | nil => rfl
  | cons x rest ih =>
    rw [List.map_cons, List.sum_cons, ← ih, List.filterMap_cons]
    cases x.gain? (p.reply x.address) with
    | none => rw [Option.getD_none, zero_add]
    | some gain => rw [Option.getD_some, List.sum_cons]

lemma NoBetter.gains_le (h : p.NoBetter q) (keyed : (p.strategies.map (·.address)).Nodup)
    (keyed' : (q.strategies.map (·.address)).Nodup)
    (fees : ∀ x ∈ p.strategies, x.lastPerformanceFee.toNat ≤ 10000) : p.gains ≤ q.gains := by
  rw [gains_eq, gains_eq]
  refine sum_le_sum_of_addresses (addresses_orderedStrategies_eq keyed keyed' h.addresses) ?_
  intro x hx y hy same
  replace hx := (orderedStrategies_perm _).subset hx
  replace hy := (orderedStrategies_perm _).subset hy
  exact Strategy.gain_le (same ▸ h.replies x hx) (h.debtRatios x hx y hy same)
    (h.fees x hx y hy same) (fees x hx)

/-- Further failures make no situation better. -/
lemma losing_noBetter (p : Situation) (keyed : (p.strategies.map (·.address)).Nodup)
    (lost : Address → Option ChainError) : (p.losing lost).NoBetter p where
  addresses _ := Iff.rfl
  replies x _ := by
    rintro n (answered : (lost x.address).elim (p.reply x.address) .error = .ok n)
    cases failure : lost x.address with
    | none =>
      rw [failure, Option.elim_none] at answered
      exact ⟨n, answered, Nat.le_refl _⟩
    | some cause =>
      rw [failure, Option.elim_some] at answered
      cases answered
  debtRatios x hx y hy same := by rw [List.inj_on_of_nodup_map keyed hx hy same]
  fees x hx y hy same := by rw [List.inj_on_of_nodup_map keyed hx hy same]

/-- In a situation that is no better than another one a vault with deposits has no larger APR by
debt ratios. In particular no further failure raises it. Situations are a fair account of runs: an
oracle that answers each call on its own yields what its situation says, and any other run is one in
some situation, whatever the oracle's replies depend on. -/
theorem apr_le_of_noBetter {assets : Decimal} (known : v.lastTotalAssets = some assets)
    (deposits : assets.value ≠ 0) (keyed : (p.strategies.map (·.address)).Nodup)
    (keyed' : (q.strategies.map (·.address)).Nodup)
    (fees : ∀ x ∈ p.strategies, x.lastPerformanceFee.toNat ≤ 10000) (worse : p.NoBetter q) :
    (∀ apr apr', p.Yields v apr → q.Yields v apr' → apr.value ≤ apr'.value) ∧
    (∀ lost apr apr', (p.losing lost).Yields v apr → p.Yields v apr' → apr.value ≤ apr'.value) ∧
    (∀ (σ : Type) (a : OracleAdapter (StateM σ)) (t : Tally) (s : σ), p.Answers a.ask →
      p.Yields v (debtRatioApr a v p.strategies t s).1.1) ∧
    ∀ (σ : Type) (a : OracleAdapter (StateM σ)) (t : Tally) (s : σ),
      ∃ reply, Yields ⟨p.strategies, reply⟩ v (debtRatioApr a v p.strategies t s).1.1 := by
  have full := Vault.isEmpty_eq_false known deposits
  have compare {p q : Situation} {apr apr' : Decimal} (h : p.Yields v apr) (h' : q.Yields v apr')
      (le : p.gains ≤ q.gains) : apr.value ≤ apr'.value := by
    rw [h.value_eq full, h'.value_eq full]
    gcongr
  refine ⟨?_, ?_, ?_, ?_⟩
  · intro apr apr' h h'
    exact compare h h' (worse.gains_le keyed keyed' fees)
  · intro lost apr apr' h h'
    exact compare h h' ((p.losing_noBetter keyed lost).gains_le keyed keyed fees)
  · intro σ a t s answers
    exact answers.yields v t s
  · intro σ a t s
    exact exists_yields full a keyed t s

/-- An oracle that fails at first and one that answers zero instead. One strategy has a larger fee
in the first situation, the other one a smaller share. -/
theorem apr_le_of_noBetter_of_lost_read :
    let failure : ChainError := .rpc "eth_call" "reverted"
    let v : Vault := { Vault.new 1 ⟨10⟩ "3.0.0" with
      kind := .multiple, lastTotalAssets := some (.ofInt 1000) }
    let p : Situation :=
      ⟨[⟨⟨12⟩, ⟨10⟩, some 4000, 2000⟩, ⟨⟨11⟩, ⟨10⟩, some 6000, 1000⟩],
        fun address => if address = ⟨12⟩ then .ok 100000000000000000 else .error failure⟩
    let q : Situation :=
      ⟨[⟨⟨11⟩, ⟨10⟩, some 6000, 500⟩, ⟨⟨12⟩, ⟨10⟩, some 5000, 2000⟩],
        fun address => if address = ⟨12⟩ then .ok 100000000000000000 else .ok 0⟩
    let a : OracleAdapter (StateM Nat) := ⟨1, fun _ calls =>
      (if calls = 0 then .error failure else .ok 100000000000000000, calls + 1)⟩
    let b : OracleAdapter (StateM Unit) := ⟨1, fun call s => (q.reply call.subject, s)⟩
    let apr := (debtRatioApr a v p.strategies {} 0).1.1
    p.NoBetter q ∧ p.Yields v apr ∧ apr.value = 288 / 10000 ∧
      apr.value ≤ (debtRatioApr b v q.strategies {} ()).1.1.value := by
  intro failure v p q a b apr
  have sorted : orderedStrategies p.strategies =
      [⟨⟨11⟩, ⟨10⟩, some 6000, 1000⟩, ⟨⟨12⟩, ⟨10⟩, some 4000, 2000⟩] :=
    orderedStrategies_eq (by decide) (by decide)
  have journal : (debtRatioApr a.journaled v p.strategies {} [] 0).1.2 =
      [⟨.strategyApr ⟨11⟩ 0, .error failure⟩, ⟨.strategyApr ⟨12⟩ 0, .ok 100000000000000000⟩] := by
    simp only [debtRatioApr, sorted]
    rfl
  have yields : p.Yields v apr := by
    refine .ran a {} 0 ?_
    rw [journal]
    intro e he
    simp only [List.mem_cons, List.not_mem_nil, or_false] at he
    rcases he with rfl | rfl <;> rfl
  have worse : p.NoBetter q := by
    refine ⟨?_, ?_, by decide, by decide⟩
    · intro address
      simp [p, q, or_comm]
    · intro x hx n answered
      simp only [p, List.mem_cons, List.not_mem_nil, or_false] at hx
      rcases hx with rfl | rfl
      · exact ⟨n, answered, Nat.le_refl _⟩
      · cases answered
  have known : v.lastTotalAssets = some (.ofInt 1000) := rfl
  obtain ⟨le, -⟩ := apr_le_of_noBetter known (by simp) (by decide) (by decide) (by decide) worse
  refine ⟨worse, yields, ?_, ?_⟩
  · simp only [apr, debtRatioApr, sorted]
    decide +kernel
  · exact le _ _ yields (Answers.yields (fun _ _ _ => rfl) v {} ())

end Situation

end VaultIndex
