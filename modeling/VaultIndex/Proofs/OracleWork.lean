import Mathlib.Data.List.Basic
import VaultIndex.Apr.Calculator

/-!
# Work that consults an oracle

A forward APY asks an oracle, counts, and does one thing after the other. Whatever relates two
oracles call by call, and is kept by these, relates the forward APYs that are computed by them
(`Activity.IsCongruence.forwardApy`).
-/

namespace VaultIndex

/-! ### The second call about a vault -/

namespace OracleAdapter

variable {m : Type → Type} [Monad m]

/-- The APR of a vault for which the first call gives none. -/
def fallbackApr (a : OracleAdapter m) (vault : Address) : Activity m Decimal := do
  Activity.count (.oracleFallbacks a.chain) 1
  match ← Activity.outside (a.ask (.currentApr vault)) with
  | .ok apr => return normalizedApr apr
  | .error _ => return .zero

lemma vaultApr_eq (a : OracleAdapter m) (vault : Address) :
    a.vaultApr vault = (do
      match ← Activity.outside (a.ask (.strategyApr vault 0)) with
      | .ok apr => if apr = 0 then a.fallbackApr vault else return normalizedApr apr
      | .error _ => a.fallbackApr vault) := by
  refine bind_congr fun first => ?_
  cases first with
  | ok apr =>
    by_cases h : apr = 0
    · subst h
      rfl
    · simp only [ne_eq, h, not_false_eq_true, if_true, if_false]
  | error cause => rfl

end OracleAdapter

/-! ### Related work -/

variable {m n : Type → Type} [Monad m] [Monad n]

/-- A relation that holds between doing nothing and doing nothing and between equal additions to a
counter, and is kept by doing one thing after the other. -/
structure Activity.IsCongruence (R : (α : Type) → Activity m α → Activity n α → Prop) : Prop where
  done : ∀ {α : Type} (a : α), R α (pure a) (pure a)
  count : ∀ (c : Counter) (k : Nat), R Unit (count c k) (count c k)
  bind : ∀ {α β : Type} {x : Activity m α} {y : Activity n α} {f : α → Activity m β}
    {g : α → Activity n β}, R α x y → (∀ a, R β (f a) (g a)) → R β (x >>= f) (y >>= g)

/-- Two oracles of one chain of which every call is related. -/
structure OracleAdapter.Related (R : (α : Type) → Activity m α → Activity n α → Prop)
    (a : OracleAdapter m) (b : OracleAdapter n) : Prop where
  chain_eq : a.chain = b.chain
  ask : ∀ call, R _ (Activity.outside (a.ask call)) (Activity.outside (b.ask call))

/-- Two oracles of one chain of which the calls about some strategies are related. -/
structure OracleAdapter.RelatedAbout (R : (α : Type) → Activity m α → Activity n α → Prop)
    (strategies : List Strategy) (a : OracleAdapter m) (b : OracleAdapter n) : Prop where
  chain_eq : a.chain = b.chain
  ask : ∀ x ∈ strategies, R _ (Activity.outside (a.ask (.strategyApr x.address 0)))
    (Activity.outside (b.ask (.strategyApr x.address 0)))

lemma OracleAdapter.RelatedAbout.mono
    {R : (α : Type) → Activity m α → Activity n α → Prop} {l k : List Strategy}
    {a : OracleAdapter m} {b : OracleAdapter n} (h : RelatedAbout R l a b) (part : k ⊆ l) :
    RelatedAbout R k a b where
  chain_eq := h.chain_eq
  ask x hx := h.ask x (part hx)

lemma orderedStrategies_perm (strategies : List Strategy) :
    (orderedStrategies strategies).Perm strategies := List.mergeSort_perm _ _

namespace Activity.IsCongruence

variable {R : (α : Type) → Activity m α → Activity n α → Prop} (hR : IsCongruence R)
  {a : OracleAdapter m} {b : OracleAdapter n}

include hR

section

variable (hab : a.Related R b)

include hab

lemma fallbackApr (vault : Address) : R _ (a.fallbackApr vault) (b.fallbackApr vault) := by
  unfold OracleAdapter.fallbackApr
  rw [hab.chain_eq]
  apply hR.bind (hR.count _ 1)
  intro _
  apply hR.bind (hab.ask _)
  intro reply
  cases reply <;> exact hR.done _

lemma vaultApr (vault : Address) : R _ (a.vaultApr vault) (b.vaultApr vault) := by
  rw [OracleAdapter.vaultApr_eq, OracleAdapter.vaultApr_eq]
  apply hR.bind (hab.ask _)
  intro first
  cases first with
  | ok apr =>
    by_cases h : apr = 0
    · simp only [h, if_true]
      exact hR.fallbackApr hab vault
    · simp only [h, if_false]
      exact hR.done _
  | error cause => exact hR.fallbackApr hab vault

end

variable {l : List Strategy}

lemma strategyApr (hab : OracleAdapter.RelatedAbout R l a b) {x : Strategy} (hx : x ∈ l) :
    R _ (a.strategyApr x.address) (b.strategyApr x.address) := by
  apply hR.bind (hab.ask x hx)
  intro reply
  cases reply with
  | ok apr => exact hR.done _
  | error cause =>
    rw [hab.chain_eq]
    exact hR.bind (hR.count _ 1) fun _ => hR.done _

lemma firstApr (hab : OracleAdapter.RelatedAbout R l a b) :
    R _ (DebtRatio.firstApr a l) (DebtRatio.firstApr b l) := by
  induction l with
  | nil => exact hR.done _
  | cons x rest ih =>
    apply hR.bind (hR.strategyApr hab List.mem_cons_self)
    intro reply
    cases reply with
    | ok apr => exact hR.done _
    | error cause => exact ih (hab.mono (List.subset_cons_self x rest))

lemma weightedSum (hab : OracleAdapter.RelatedAbout R l a b) (sum : Decimal) :
    R _ (DebtRatio.weightedSum a l sum) (DebtRatio.weightedSum b l sum) := by
  induction l generalizing sum with
  | nil => exact hR.done _
  | cons x rest ih =>
    have later := ih (hab.mono (List.subset_cons_self x rest))
    cases allocation : x.activeDebtRatio with
    | none =>
      simp only [DebtRatio.weightedSum, allocation]
      exact later sum
    | some debtRatio =>
      simp only [DebtRatio.weightedSum, allocation]
      apply hR.bind (hR.strategyApr hab List.mem_cons_self)
      intro reply
      cases reply <;> exact later _

lemma debtRatioApr (v : Vault) (hab : OracleAdapter.RelatedAbout R l a b) :
    R _ (VaultIndex.debtRatioApr a v l) (VaultIndex.debtRatioApr b v l) := by
  have ordered := hab.mono (orderedStrategies_perm l).subset
  simp only [VaultIndex.debtRatioApr]
  cases v.isEmpty with
  | true => exact hR.firstApr ordered
  | false => exact hR.bind (hR.weightedSum ordered _) fun _ => hR.done _

lemma strategiesApr (v : Vault) (hab : OracleAdapter.RelatedAbout R l a b) :
    R _ (VaultIndex.strategiesApr a v l) (VaultIndex.strategiesApr b v l) := by
  simp only [VaultIndex.strategiesApr]
  cases v.kind with
  | multiple => exact hR.debtRatioApr v hab
  | single => exact hR.done _
  | legacy => exact hR.done _

/-- Chains whose oracles are related give related forward APYs. -/
theorem forwardApy {registry : ChainRegistry} {source : ChainSource m} {other : ChainSource n}
    (v : Vault) (strategies : List Strategy)
    (connect : ∀ {β : Type} {f : Option (OracleAdapter m) → Activity m β}
      {g : Option (OracleAdapter n) → Activity n β}, R β (f none) (g none) →
      (∀ a b, OracleAdapter.Related R a b → R β (f (some a)) (g (some b))) →
      R β (OracleAdapter.connect? registry source v.chainId >>= f)
        (OracleAdapter.connect? registry other v.chainId >>= g)) :
    R _ (VaultIndex.forwardApy registry source v strategies)
      (VaultIndex.forwardApy registry other v strategies) := by
  apply connect
  · exact hR.done _
  · intro a b hab
    apply hR.bind (hR.vaultApr hab v.address)
    intro oracle
    apply hR.bind (hR.strategiesApr v ⟨hab.chain_eq, fun x _ => hab.ask _⟩)
    intro debtRatio
    exact hR.done _

end Activity.IsCongruence

end VaultIndex
