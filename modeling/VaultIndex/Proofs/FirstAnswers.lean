import VaultIndex.Proofs.DebtRatios

/-!
# Vaults without deposits

A vault without deposits has no shares. The first strategy that the oracle answers for, in ascending
order of addresses, speaks for it alone: neither strategies with higher addresses nor allocations
make a difference (`debtRatioApr_of_first_answer`).
-/

namespace VaultIndex

open Numbered (number)

variable {σ : Type}

/-- What matters of a strategy to a vault without deposits: its address and its fee. -/
def Strategy.terms (x : Strategy) : Address × U256 := (x.address, x.lastPerformanceFee)

namespace DebtRatio

variable {l k : List Strategy} {asked silent : List Consultation} {apr : Decimal}

/-! ### Up to the first answer -/

/-- Strategies that are not answered for may stand in front. -/
lemma FirstAnswer.of_silent (failed : ∀ c ∈ silent, c.failed = true)
    (h : FirstAnswer l asked apr) :
    FirstAnswer (silent.map (·.strategy) ++ l) (silent ++ asked) apr := by
  induction silent with
  | nil => exact h
  | cons c rest ih =>
    obtain ⟨first, later⟩ := List.forall_mem_cons.1 failed
    obtain ⟨x, reply⟩ := c
    cases reply with
    | ok n => cases first
    | error cause => exact .failed x cause (ih later)

/-- Either nobody is answered for, or somebody is after a number of failures. -/
lemma FirstAnswer.cases (h : FirstAnswer l asked apr) :
    ∃ silent : List Consultation, (∀ c ∈ silent, c.failed = true) ∧
      ((asked = silent ∧ l = silent.map (·.strategy) ∧ apr = .zero) ∨
        ∃ x n above, asked = silent ++ [⟨x, .ok n⟩] ∧ l = silent.map (·.strategy) ++ x :: above ∧
          apr = normalizedApr n * x.feeMultiplier * haircut) := by
  induction h with
  | nobody => exact ⟨[], List.forall_mem_nil _, .inl ⟨rfl, rfl, rfl⟩⟩
  | answered x above n =>
    exact ⟨[], List.forall_mem_nil _, .inr ⟨x, n, above, rfl, rfl, rfl⟩⟩
  | failed x cause later ih =>
    obtain ⟨silent, failed, course⟩ := ih
    refine ⟨⟨x, .error cause⟩ :: silent, List.forall_mem_cons.2 ⟨rfl, failed⟩, ?_⟩
    rcases course with ⟨rfl, rfl, rfl⟩ | ⟨y, n, above, rfl, rfl, rfl⟩
    · exact .inl ⟨rfl, rfl, rfl⟩
    · exact .inr ⟨y, n, above, rfl, rfl, rfl⟩

/-- Strategies with the same addresses and fees are asked about in the same way. -/
lemma firstApr_congr {m : Type → Type} [Monad m] (a : OracleAdapter m)
    (same : l.map Strategy.terms = k.map Strategy.terms) : firstApr a l = firstApr a k := by
  induction l generalizing k with
  | nil =>
    obtain rfl := List.map_eq_nil_iff.1 same.symm
    rfl
  | cons x rest ih =>
    obtain ⟨y, rest', rfl, terms, rests⟩ := List.map_eq_cons_iff.1 same.symm
    obtain ⟨address, fee⟩ := Prod.mk.inj terms
    have multiplier : y.feeMultiplier = x.feeMultiplier := by
      rw [Strategy.feeMultiplier, Strategy.feeMultiplier, fee]
    rw [firstApr, firstApr, address, multiplier, ih rests.symm]

end DebtRatio

/-! ### Strategies up to an address -/

section Ascending

variable {κ ν : Type} [Numbered κ] {below above rest m : List (κ × ν)} {e : κ × ν}

/-- Ascending entries that agree up to the first one of them begin with it. -/
lemma exists_eq_cons (hl : (e :: rest).Pairwise fun a b => number a.1 < number b.1)
    (hm : m.Pairwise fun a b => number a.1 < number b.1)
    (agree : ∀ d, number d.1 ≤ number e.1 → (d ∈ m ↔ d ∈ e :: rest)) : ∃ m', m = e :: m' := by
  have known : e ∈ m := (agree e (Nat.le_refl _)).2 List.mem_cons_self
  cases m with
  | nil => cases known
  | cons d m' =>
    rcases List.mem_cons.1 known with rfl | later
    · exact ⟨m', rfl⟩
    · have before := (List.pairwise_cons.1 hm).1 e later
      have listed := (agree d (Nat.le_of_lt before)).1 List.mem_cons_self
      rcases List.mem_cons.1 listed with rfl | behind
      · exact ⟨m', rfl⟩
      · exact absurd ((List.pairwise_cons.1 hl).1 d behind) (Nat.lt_asymm before)

/-- Ascending entries that agree up to one of them begin alike. -/
lemma exists_eq_append_cons
    (hl : (below ++ e :: above).Pairwise fun a b => number a.1 < number b.1)
    (hm : m.Pairwise fun a b => number a.1 < number b.1)
    (agree : ∀ d, number d.1 ≤ number e.1 → (d ∈ m ↔ d ∈ below ++ e :: above)) :
    ∃ above', m = below ++ e :: above' := by
  induction below generalizing m with
  | nil => exact exists_eq_cons hl hm agree
  | cons c below ih =>
    obtain ⟨first, later⟩ := List.pairwise_cons.1 hl
    have lower : number c.1 < number e.1 := first e (by simp)
    obtain ⟨m', rfl⟩ := exists_eq_cons hl hm fun d low =>
      agree d (Nat.le_trans low (Nat.le_of_lt lower))
    obtain ⟨first', later'⟩ := List.pairwise_cons.1 hm
    obtain ⟨above', rfl⟩ := ih later later' fun d low => by
      have step := agree d low
      rw [List.cons_append, List.mem_cons, List.mem_cons] at step
      constructor
      · intro hd
        exact (step.1 (.inr hd)).resolve_left fun same =>
          Nat.lt_irrefl _ (same ▸ first' d hd)
      · intro hd
        exact (step.2 (.inr hd)).resolve_left fun same => Nat.lt_irrefl _ (same ▸ first d hd)
    exact ⟨above', rfl⟩

end Ascending

section Terms

variable {strategies others : List Strategy} (keyed : (strategies.map (·.address)).Nodup)
  (keyed' : (others.map (·.address)).Nodup)

include keyed

lemma pairwise_terms : ((orderedStrategies strategies).map Strategy.terms).Pairwise
    fun e f => number e.1 < number f.1 :=
  List.pairwise_map.2 (pairwise_orderedStrategies keyed)

omit keyed in
lemma mem_terms_orderedStrategies {e : Address × U256} :
    e ∈ (orderedStrategies strategies).map Strategy.terms ↔ e ∈ strategies.map Strategy.terms :=
  ((orderedStrategies_perm strategies).map _).mem_iff

include keyed'

/-- Lists that agree are the same but for allocations once they are put in order. -/
lemma terms_orderedStrategies_eq
    (agree : ∀ e, e ∈ others.map Strategy.terms ↔ e ∈ strategies.map Strategy.terms) :
    (orderedStrategies others).map Strategy.terms =
      (orderedStrategies strategies).map Strategy.terms :=
  Table.eq_of_mem_iff (pairwise_terms keyed') (pairwise_terms keyed) fun e => by
    rw [mem_terms_orderedStrategies, mem_terms_orderedStrategies, agree]

/-- Lists that agree up to a strategy begin alike but for allocations. -/
lemma exists_terms_orderedStrategies_eq {below above : List Strategy} {x : Strategy}
    (ordered : orderedStrategies strategies = below ++ x :: above)
    (agree : ∀ e, number e.1 ≤ number x.address →
      (e ∈ others.map Strategy.terms ↔ e ∈ strategies.map Strategy.terms)) :
    ∃ above', (orderedStrategies others).map Strategy.terms =
      (below ++ x :: above').map Strategy.terms := by
  have ascending := pairwise_terms keyed
  rw [ordered, List.map_append, List.map_cons] at ascending
  obtain ⟨rest, begins⟩ := exists_eq_append_cons ascending (pairwise_terms keyed') fun e low => by
    rw [mem_terms_orderedStrategies, agree e low, ← mem_terms_orderedStrategies, ordered,
      List.map_append, List.map_cons]
  obtain ⟨_, _, -, -, tail⟩ := List.map_eq_append_iff.1 begins
  obtain ⟨_, above', -, -, rfl⟩ := List.map_eq_cons_iff.1 tail
  exact ⟨above', by rw [begins, List.map_append, List.map_cons]⟩

end Terms

/-! ### The APR of a vault without deposits -/

/-- The APR by debt ratios of a vault without deposits is nine tenths of what the first strategy
that is answered for yields after its fee, as a number and without rounding, and zero if none is.
The strategies are asked about in ascending order of addresses up to that one. The run is the same
whatever allocations there are and whatever strategies there are above that one. -/
theorem debtRatioApr_of_first_answer (a : OracleAdapter (StateM σ)) {v : Vault}
    {strategies : List Strategy}
    (empty : ∀ assets, v.lastTotalAssets = some assets → assets.value = 0)
    (keyed : (strategies.map (·.address)).Nodup) (t : Tally) (s : σ) :
    let run := debtRatioApr a.journaled v strategies t [] s
    let ordered := orderedStrategies strategies
    debtRatioApr a v strategies t s = (run.1.1, run.2) ∧
    ordered.Perm strategies ∧ ordered.Pairwise (fun x y => number x.address < number y.address) ∧
    ∃ silent : List Consultation, (∀ c ∈ silent, c.failed = true) ∧
      ((ordered = silent.map (·.strategy) ∧ run.1.2 = silent.map (·.exchange) ∧
          run.1.1.1.value = 0 ∧
          ∀ others : List Strategy, (others.map (·.address)).Nodup →
            (∀ e, e ∈ others.map Strategy.terms ↔ e ∈ strategies.map Strategy.terms) →
            debtRatioApr a.journaled v others t [] s = run) ∨
        ∃ x n above, ordered = silent.map (·.strategy) ++ x :: above ∧
          run.1.2 = silent.map (·.exchange) ++ [⟨.strategyApr x.address 0, .ok n⟩] ∧
          run.1.1.1.value =
            9 / 10 * (n.toNat / 10 ^ 18) * (1 - x.lastPerformanceFee.toNat / 10 ^ 4) ∧
          ∀ others : List Strategy, (others.map (·.address)).Nodup →
            (∀ e, number e.1 ≤ number x.address →
              (e ∈ others.map Strategy.terms ↔ e ∈ strategies.map Strategy.terms)) →
            debtRatioApr a.journaled v others t [] s = run) := by
  intro run ordered
  have first (l : List Strategy) :
      debtRatioApr a.journaled v l = DebtRatio.firstApr a.journaled (orderedStrategies l) := by
    rw [debtRatioApr, if_pos (Vault.isEmpty_iff.2 empty)]
  refine ⟨observes_debtRatioApr a v strategies t [] s, orderedStrategies_perm strategies,
    pairwise_orderedStrategies keyed, ?_⟩
  obtain ⟨asked, s', ⟨apr, course⟩, replayed⟩ := DebtRatio.firstApr_replayed a t [] s ordered
  have ran : run = _ := (congrFun (congrFun (congrFun (first strategies) t) []) s).trans
    (replayed ordered apr course)
  obtain ⟨silent, failed, ⟨rfl, all, rfl⟩ | ⟨x, n, above, rfl, upTo, rfl⟩⟩ := course.cases
  · refine ⟨asked, failed, .inl ⟨all, ?_, ?_, ?_⟩⟩
    · rw [ran, List.nil_append]
    · rw [ran, Decimal.value_zero]
    · intro others keyed' agree
      have same := terms_orderedStrategies_eq keyed keyed' agree
      rw [first, DebtRatio.firstApr_congr _ same]
      exact (replayed ordered _ course).trans ran.symm
  · refine ⟨silent, failed, .inr ⟨x, n, above, upTo, ?_, ?_, ?_⟩⟩
    · rw [ran, List.nil_append, List.map_append]
      rfl
    · rw [ran]
      simp only [Decimal.value_mul, value_normalizedApr, Strategy.value_feeMultiplier,
        value_haircut]
      ring
    · intro others keyed' agree
      obtain ⟨above', begins⟩ := exists_terms_orderedStrategies_eq keyed keyed' upTo agree
      rw [first, DebtRatio.firstApr_congr _ begins]
      exact (replayed _ _ (.of_silent failed (.answered x above' n))).trans ran.symm

/-- Total assets of zero with three decimal places: the first strategy is not answered for, the
second one is although it has no share, and the third one might as well be another one. -/
theorem debtRatioApr_of_second_answer :
    let replies : List (Except ChainError U256) :=
      [.error (.rpc "eth_call" "reverted"), .ok 100000000000000000, .ok 5]
    let a : OracleAdapter (StateM Nat) :=
      ⟨1, fun _ calls => (replies.getD calls (.ok 0), calls + 1)⟩
    let v : Vault := { Vault.new 1 ⟨10⟩ "3.0.0" with
      kind := .multiple, lastTotalAssets := some ⟨0, 3⟩ }
    let strategies : List Strategy :=
      [⟨⟨13⟩, ⟨10⟩, some 4000, 0⟩, ⟨⟨12⟩, ⟨10⟩, some 0, 2000⟩, ⟨⟨11⟩, ⟨10⟩, none, 0⟩]
    let others : List Strategy :=
      [⟨⟨11⟩, ⟨10⟩, some 9000, 0⟩, ⟨⟨14⟩, ⟨10⟩, some 1, 300⟩, ⟨⟨12⟩, ⟨10⟩, none, 2000⟩]
    let run := debtRatioApr a.journaled v strategies {} [] 0
    run.1.2.map (·.call) = [.strategyApr ⟨11⟩ 0, .strategyApr ⟨12⟩ 0] ∧
      run.1.1.1.value = 72 / 1000 ∧ debtRatioApr a.journaled v others {} [] 0 = run := by
  intro replies a v strategies others run
  have sorted : orderedStrategies strategies =
      [⟨⟨11⟩, ⟨10⟩, none, 0⟩, ⟨⟨12⟩, ⟨10⟩, some 0, 2000⟩, ⟨⟨13⟩, ⟨10⟩, some 4000, 0⟩] :=
    orderedStrategies_eq (by decide) (by decide)
  have asked : run.1.2 = [⟨.strategyApr ⟨11⟩ 0, .error (.rpc "eth_call" "reverted")⟩,
      ⟨.strategyApr ⟨12⟩ 0, .ok 100000000000000000⟩] := by
    simp only [run, debtRatioApr, sorted]
    rfl
  have empty : ∀ assets, v.lastTotalAssets = some assets → assets.value = 0 := by
    rintro _ ⟨⟩
    rfl
  have keyed : (strategies.map (·.address)).Nodup := by decide
  have agree : ∀ e : Address × U256, number e.1 ≤ 12 →
      (e ∈ others.map Strategy.terms ↔ e ∈ strategies.map Strategy.terms) := by
    have there : ∀ e ∈ others.map Strategy.terms, number e.1 ≤ 12 →
        e ∈ strategies.map Strategy.terms := by decide
    have back : ∀ e ∈ strategies.map Strategy.terms, number e.1 ≤ 12 →
        e ∈ others.map Strategy.terms := by decide
    exact fun e low => ⟨fun he => there e he low, fun he => back e he low⟩
  obtain ⟨-, -, -, silent, failed, first⟩ := debtRatioApr_of_first_answer a empty keyed {} 0
  rcases first with ⟨-, journal, -⟩ | ⟨x, n, above, ordered, journal, value, same⟩
  · have answered : (⟨.strategyApr ⟨12⟩ 0, .ok 100000000000000000⟩ : OracleExchange) ∈
        silent.map (·.exchange) := by
      rw [← journal]
      exact asked ▸ List.mem_cons_of_mem _ List.mem_cons_self
    obtain ⟨c, hc, exchange⟩ := List.mem_map.1 answered
    have reply : c.reply = .ok 100000000000000000 := congrArg (·.reply) exchange
    have silence := failed c hc
    rw [Consultation.failed, reply] at silence
    cases silence
  · replace journal := asked.symm.trans journal
    obtain ⟨c, rfl⟩ : ∃ c, silent = [c] :=
      List.length_eq_one_iff.1 (by simpa using congrArg List.length journal.symm)
    obtain ⟨-, rfl, -⟩ : _ ∧ _ = x ∧ _ := by
      simpa only [sorted, List.map_cons, List.map_nil, List.cons_append, List.nil_append,
        List.cons.injEq] using ordered
    obtain ⟨-, rfl⟩ : _ ∧ _ = n := by simpa using journal
    exact ⟨by rw [asked]; rfl, value.trans (by decide +kernel), same others (by decide) agree⟩

end VaultIndex
