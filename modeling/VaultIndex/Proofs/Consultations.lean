import VaultIndex.Proofs.Journals
import VaultIndex.Proofs.Tallies

/-!
# Consulting an oracle

What an oracle was asked, what it replied, and what came of it, for oracles whose replies may depend
on all that they were asked before. Each piece of work that consults an oracle is described by a
relation between its replies and its result, with one rule for each course that it can take.
-/

namespace VaultIndex

open Numbered (number)

/-- A strategy that an oracle was asked about, with its reply. -/
structure Consultation where
  strategy : Strategy
  reply : Except ChainError U256

namespace Consultation

def exchange (c : Consultation) : OracleExchange := ⟨.strategyApr c.strategy.address 0, c.reply⟩

/-- Whether the oracle did not answer. -/
def failed (c : Consultation) : Bool := !c.reply.isOk

@[simp] lemma failed_ok (s : Strategy) (apr : U256) : failed ⟨s, .ok apr⟩ = false := rfl

end Consultation

/-! ### Courses of a consultation -/

/-- The replies about a vault, of which the second one may not have been asked for, and the APR that
they come to. -/
inductive OracleAdapter.Replies :
    Except ChainError U256 → Option (Except ChainError U256) → Decimal → Prop where
  | first (apr : U256) (nonzero : apr ≠ 0) : Replies (.ok apr) none (normalizedApr apr)
  | second {first : Except ChainError U256} (apr : U256)
      (unsupported : ∀ n, first = .ok n → n = 0) :
      Replies first (some (.ok apr)) (normalizedApr apr)
  | neither {first : Except ChainError U256} (cause : ChainError)
      (unsupported : ∀ n, first = .ok n → n = 0) : Replies first (some (.error cause)) .zero

/-- A second reply is asked for exactly if the first one is a failure or zero. -/
lemma OracleAdapter.Replies.isSome_second {first : Except ChainError U256}
    {second : Option (Except ChainError U256)} {apr : Decimal} (h : Replies first second apr) :
    second.isSome = true ↔ ∀ n, first = .ok n → n = 0 := by
  cases h with
  | first n nonzero => exact iff_of_false Bool.false_ne_true fun h => nonzero (h n rfl)
  | second n unsupported => exact iff_of_true rfl unsupported
  | neither cause unsupported => exact iff_of_true rfl unsupported

namespace DebtRatio

/-- The consultations about a list of strategies until the first one that is answered, and the APR
that they come to. -/
inductive FirstAnswer : List Strategy → List Consultation → Decimal → Prop where
  | nobody : FirstAnswer [] [] .zero
  | answered (s : Strategy) (rest : List Strategy) (apr : U256) :
      FirstAnswer (s :: rest) [⟨s, .ok apr⟩] (normalizedApr apr * s.feeMultiplier * haircut)
  | failed (s : Strategy) (cause : ChainError) {rest : List Strategy} {asked : List Consultation}
      {apr : Decimal} (later : FirstAnswer rest asked apr) :
      FirstAnswer (s :: rest) (⟨s, .error cause⟩ :: asked) apr

/-- The consultations about those of a list of strategies that have an allocation, and what they add
to a sum. -/
inductive Weighted : List Strategy → Decimal → List Consultation → Decimal → Prop where
  | nobody (sum : Decimal) : Weighted [] sum [] sum
  | idle (s : Strategy) {rest : List Strategy} {sum apr : Decimal} {asked : List Consultation}
      (unallocated : s.activeDebtRatio = none) (later : Weighted rest sum asked apr) :
      Weighted (s :: rest) sum asked apr
  | answered (s : Strategy) (reply : U256) {debtRatio : U256} {rest : List Strategy}
      {sum apr : Decimal} {asked : List Consultation}
      (allocated : s.activeDebtRatio = some debtRatio)
      (later : Weighted rest (sum + s.contribution (normalizedApr reply) debtRatio) asked apr) :
      Weighted (s :: rest) sum (⟨s, .ok reply⟩ :: asked) apr
  | failed (s : Strategy) (cause : ChainError) {debtRatio : U256} {rest : List Strategy}
      {sum apr : Decimal} {asked : List Consultation}
      (allocated : s.activeDebtRatio = some debtRatio) (later : Weighted rest sum asked apr) :
      Weighted (s :: rest) sum (⟨s, .error cause⟩ :: asked) apr

variable {l : List Strategy} {sum apr : Decimal} {asked : List Consultation}

lemma FirstAnswer.sublist (h : FirstAnswer l asked apr) :
    (asked.map (·.strategy)).Sublist l := by
  induction h with
  | nobody => exact .slnil
  | answered s rest apr => exact (List.nil_sublist rest).cons_cons s
  | failed s cause later ih => exact ih.cons_cons s

/-- In a list of ascending addresses, a strategy is asked about unless one before it was answered
for. -/
lemma FirstAnswer.asked_iff (h : FirstAnswer l asked apr)
    (hl : l.Pairwise fun x y => number x.address < number y.address) :
    ∀ x ∈ l, x ∈ asked.map (·.strategy) ↔
      ∀ c ∈ asked, number c.strategy.address < number x.address → c.failed = true := by
  induction h with
  | nobody => simp
  | answered s rest apr =>
    obtain ⟨above, -⟩ := List.pairwise_cons.1 hl
    intro x hx
    rcases List.mem_cons.1 hx with rfl | later
    · simp
    · have apart : x ≠ s := by
        rintro rfl
        exact Nat.lt_irrefl _ (above x later)
      simp [apart, above x later]
  | @failed s cause rest asked apr later ih =>
    obtain ⟨above, hrest⟩ := List.pairwise_cons.1 hl
    intro x hx
    rw [List.map_cons, List.mem_cons, List.forall_mem_cons]
    rcases List.mem_cons.1 hx with rfl | hx'
    -- what was asked after the head stands behind it and says nothing about it
    · refine iff_of_true (.inl rfl) ⟨fun _ => rfl, fun c hc below => ?_⟩
      have behind := above c.strategy (later.sublist.subset (List.mem_map_of_mem hc))
      exact absurd (Nat.lt_trans below behind) (Nat.lt_irrefl _)
    · have apart : x ≠ s := by
        rintro rfl
        exact Nat.lt_irrefl _ (above x hx')
      rw [or_iff_right apart, ih hrest x hx']
      exact (and_iff_right fun _ => rfl).symm

/-- All strategies with an allocation are asked about, and no others. -/
lemma Weighted.map_strategy (h : Weighted l sum asked apr) :
    asked.map (·.strategy) = l.filter (·.activeDebtRatio.isSome) := by
  induction h with
  | nobody sum => rfl
  | idle s unallocated later ih => rw [ih, List.filter_cons_of_neg (by simp [unallocated])]
  | answered s reply allocated later ih =>
    rw [List.filter_cons_of_pos (by simp [allocated]), List.map_cons, ih]
  | failed s cause allocated later ih =>
    rw [List.filter_cons_of_pos (by simp [allocated]), List.map_cons, ih]

end DebtRatio

/-! ### What is asked -/

variable {σ : Type} (a : OracleAdapter (StateM σ)) (t : Tally) (j : List OracleExchange) (s : σ)

/-- A strategy's APR takes one call, and a failed call is counted. -/
lemma strategyApr_journaled (address : Address) :
    ∃ reply s', a.journaled.strategyApr address t j s =
      (((reply.map normalizedApr,
          t.addOnes (.strategyAprFailures a.chain) (if reply.isOk then 0 else 1)),
        j ++ [⟨.strategyApr address 0, reply⟩]), s') := by
  obtain ⟨reply, s', asks⟩ : ∃ reply s', a.ask (.strategyApr address 0) s = (reply, s') :=
    ⟨_, _, rfl⟩
  refine ⟨reply, s', ?_⟩
  rw [OracleAdapter.strategyApr, Consulting.bind_run, Consulting.ask_run, asks]
  cases reply <;> rfl

lemma fallbackApr_journaled (vault : Address) {first : Except ChainError U256}
    (unsupported : ∀ n, first = .ok n → n = 0) :
    ∃ second apr s', OracleAdapter.Replies first (some second) apr ∧
      a.journaled.fallbackApr vault t j s =
        (((apr, t.addOnes (.oracleFallbacks a.chain) 1), j ++ [⟨.currentApr vault, second⟩]),
          s') := by
  obtain ⟨second, s', asks⟩ : ∃ reply s', a.ask (.currentApr vault) s = (reply, s') := ⟨_, _, rfl⟩
  rw [OracleAdapter.fallbackApr, Consulting.bind_run, Consulting.count_run, Consulting.bind_run,
    Consulting.ask_run, asks]
  cases second with
  | ok n => exact ⟨.ok n, _, s', .second n unsupported, rfl⟩
  | error cause => exact ⟨.error cause, _, s', .neither cause unsupported, rfl⟩

/-- A vault's APR is put together from one reply or from two, and a second call is counted. -/
lemma vaultApr_journaled (vault : Address) :
    ∃ first second apr s', OracleAdapter.Replies first second apr ∧
      a.journaled.vaultApr vault t j s =
        (((apr, t.addOnes (.oracleFallbacks a.chain) second.toList.length),
          j ++ ⟨.strategyApr vault 0, first⟩ :: second.toList.map (⟨.currentApr vault, ·⟩)),
          s') := by
  obtain ⟨first, s', asks⟩ : ∃ reply s', a.ask (.strategyApr vault 0) s = (reply, s') :=
    ⟨_, _, rfl⟩
  rw [OracleAdapter.vaultApr_eq, Consulting.bind_run, Consulting.ask_run, asks]
  -- either the first reply stands, or it is passed over and the vault is asked about again
  by_cases supported : ∃ n, first = .ok n ∧ n ≠ 0
  · obtain ⟨n, rfl, nonzero⟩ := supported
    refine ⟨.ok n, none, normalizedApr n, s', .first n nonzero, ?_⟩
    simp only [nonzero, if_false]
    rfl
  · have unsupported : ∀ n, first = .ok n → n = 0 := by
      intro n hn
      by_contra nonzero
      exact supported ⟨n, hn, nonzero⟩
    obtain ⟨second, apr, s'', replies, run⟩ := fallbackApr_journaled a t
      (j ++ [⟨.strategyApr vault 0, first⟩]) s' vault unsupported
    refine ⟨first, some second, apr, s'', replies, ?_⟩
    rw [List.append_assoc] at run
    cases first with
    | ok n =>
      obtain rfl := unsupported n rfl
      exact run
    | error cause => exact run

namespace DebtRatio

/-- The replies up to the first answer tell how the strategies are asked about: any other list that
they fit is asked about in the same way, whatever stands behind the answer. -/
lemma firstApr_replayed (l : List Strategy) :
    ∃ asked s', (∃ apr, FirstAnswer l asked apr) ∧ ∀ k apr, FirstAnswer k asked apr →
      firstApr a.journaled k t j s =
        (((apr, t.addOnes (.strategyAprFailures a.chain) (asked.countP (·.failed))),
          j ++ asked.map (·.exchange)), s') := by
  induction l generalizing t j s with
  | nil =>
    refine ⟨[], s, ⟨.zero, .nobody⟩, ?_⟩
    rintro _ _ ⟨⟩
    rw [List.map_nil, List.append_nil]
    rfl
  | cons x rest ih =>
    obtain ⟨reply, s', asks⟩ := strategyApr_journaled a t j s x.address
    cases reply with
    | ok n =>
      refine ⟨[⟨x, .ok n⟩], s', ⟨_, .answered x rest n⟩, ?_⟩
      rintro _ _ ⟨⟩
      rw [firstApr, Consulting.bind_run, asks]
      rfl
    | error cause =>
      -- the rest is asked about with the counters and the journal that the failed call leaves
      obtain ⟨asked, s'', ⟨apr, later⟩, replayed⟩ := ih (t.add (.strategyAprFailures a.chain) 1)
        (j ++ [⟨.strategyApr x.address 0, .error cause⟩]) s'
      refine ⟨⟨x, .error cause⟩ :: asked, s'', ⟨apr, .failed x cause later⟩, ?_⟩
      rintro _ apr' (_ | _ | ⟨_, _, later'⟩)
      rw [firstApr, Consulting.bind_run, asks]
      refine (replayed _ apr' later').trans ?_
      rw [List.countP_cons_of_pos rfl, List.map_cons, List.append_assoc]
      rfl

/-- The strategies are asked about until the first answer, and each failed call is counted. -/
lemma firstApr_journaled (l : List Strategy) :
    ∃ asked apr s', FirstAnswer l asked apr ∧
      firstApr a.journaled l t j s =
        (((apr, t.addOnes (.strategyAprFailures a.chain) (asked.countP (·.failed))),
          j ++ asked.map (·.exchange)), s') := by
  obtain ⟨asked, s', ⟨apr, h⟩, replayed⟩ := firstApr_replayed a t j s l
  exact ⟨asked, apr, s', h, replayed l apr h⟩

/-- The strategies with an allocation are all asked about, and each failed call is counted. -/
lemma weightedSum_journaled (l : List Strategy) (sum : Decimal) :
    ∃ asked apr s', Weighted l sum asked apr ∧
      weightedSum a.journaled l sum t j s =
        (((apr, t.addOnes (.strategyAprFailures a.chain) (asked.countP (·.failed))),
          j ++ asked.map (·.exchange)), s') := by
  induction l generalizing sum t j s with
  | nil => exact ⟨[], sum, s, .nobody sum, by rw [List.map_nil, List.append_nil]; rfl⟩
  | cons x rest ih =>
    cases allocation : x.activeDebtRatio with
    | none =>
      obtain ⟨asked, apr, s', later, run⟩ := ih t j s sum
      refine ⟨asked, apr, s', .idle x allocation later, ?_⟩
      rw [weightedSum, allocation]
      exact run
    | some debtRatio =>
      obtain ⟨reply, s', asks⟩ := strategyApr_journaled a t j s x.address
      simp only [weightedSum, allocation]
      rw [Consulting.bind_run, asks]
      cases reply with
      | ok apr =>
        obtain ⟨asked, total, s'', later, run⟩ := ih t
          (j ++ [⟨.strategyApr x.address 0, .ok apr⟩]) s'
          (sum + x.contribution (normalizedApr apr) debtRatio)
        refine ⟨_, total, s'', .answered x apr allocation later, run.trans ?_⟩
        rw [List.countP_cons_of_neg (by simp), List.map_cons, List.append_assoc]
        rfl
      | error cause =>
        obtain ⟨asked, total, s'', later, run⟩ := ih (t.add (.strategyAprFailures a.chain) 1)
          (j ++ [⟨.strategyApr x.address 0, .error cause⟩]) s' sum
        refine ⟨_, total, s'', .failed x cause allocation later, run.trans ?_⟩
        rw [List.countP_cons_of_pos rfl, List.map_cons, List.append_assoc]
        rfl

end DebtRatio

end VaultIndex
