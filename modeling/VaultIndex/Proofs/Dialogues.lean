import VaultIndex.Oracle.Dialogue
import VaultIndex.Proofs.OracleWork

/-!
# What dialogues come to

A dialogue whose questions are answered as the oracles of some chains answer them comes to what
asking these oracles comes to (`Dialogue.value_forwardApy`).
-/

namespace VaultIndex.Dialogue

variable {source : ChainSource Id}

/-- The number of questions of a dialogue that are put when they are answered in the given way. -/
def questions {α : Type} (answer : (q : OracleQuestion) → q.Answer) : Dialogue α → Nat
  | done _ => 0
  | ask question next => (next (answer question)).questions answer + 1

variable (source) in
/-- A dialogue comes to what some work with the oracles themselves comes to. -/
def Renders (α : Type) (x : Activity Dialogue α) (y : Activity Id α) : Prop :=
  ∀ t, (x t).value source.answers = y t

namespace Renders

lemma isCongruence : Activity.IsCongruence (Renders source) where
  done _ := fun _ => rfl
  count _ _ := fun _ => rfl
  bind {α β x y f g} hx hf := by
    intro t
    have step : (y >>= g) t = g (y t).1 (y t).2 := rfl
    rw [step, ← hx t, ← hf]
    exact value_bind source.answers (x t) fun p => f p.1 p.2

lemma related {chain : ChainId} {address : Address} {oracle : AprOracle Id}
    (had : source.aprOracle chain address = pure (.ok oracle)) :
    OracleAdapter.Related (Renders source) ⟨chain, fun call => put (.call chain address call)⟩
      ⟨chain, oracle⟩ where
  chain_eq := rfl
  ask call := by
    intro t
    have answered : source.answers (.call chain address call) = oracle call := by
      rw [ChainSource.answers, had]
      rfl
    exact congrArg (·, t) answered

/-- What is done once it is known whether an oracle can be reached, as the answer to that tells. -/
lemma value_aprOracle_bind {chain : ChainId} {address : Address}
    {answer : (q : OracleQuestion) → q.Answer} {reached : Except ChainError Unit}
    (answered : answer (.connect chain address) = reached) {β γ : Type}
    (k : Except ChainError (AprOracle Dialogue) → Activity Dialogue γ)
    (f : γ → Activity Dialogue β) (t : Tally) :
    ((Activity.outside (chains.aprOracle chain address) >>= k >>= f) t).value answer =
      ((k (reached.map fun _ call => put (.call chain address call)) >>= f) t).value answer := by
  subst answered
  rfl

/-- An oracle is reached in a dialogue where it is reached. -/
lemma connect (registry : ChainRegistry) (chain : ChainId) {β : Type}
    {f : Option (OracleAdapter Dialogue) → Activity Dialogue β}
    {g : Option (OracleAdapter Id) → Activity Id β} (unreached : Renders source β (f none) (g none))
    (reached : ∀ a b, OracleAdapter.Related (Renders source) a b →
      Renders source β (f (some a)) (g (some b))) :
    Renders source β (OracleAdapter.connect? registry chains chain >>= f)
      (OracleAdapter.connect? registry source chain >>= g) := by
  cases deployed : (registry.get? chain).bind ChainConfig.aprOracle? with
  | none =>
    simp only [OracleAdapter.connect?, deployed]
    exact unreached
  | some address =>
    intro t
    cases had : (source.aprOracle chain address : Except ChainError (AprOracle Id)) with
    | error cause =>
      have answered : source.answers (.connect chain address) = .error cause := by
        rw [ChainSource.answers, had]
        rfl
      simp only [OracleAdapter.connect?, deployed, had]
      rw [value_aprOracle_bind answered]
      exact unreached t
    | ok oracle =>
      have answered : source.answers (.connect chain address) = .ok () := by
        rw [ChainSource.answers, had]
        rfl
      simp only [OracleAdapter.connect?, deployed, had]
      rw [value_aprOracle_bind answered]
      exact reached _ _ (related had) t

end Renders

theorem value_forwardApy (registry : ChainRegistry) (source : ChainSource Id) (v : Vault)
    (strategies : List Strategy) (t : Tally) :
    (forwardApy registry chains v strategies t).value source.answers =
      forwardApy registry source v strategies t :=
  Renders.isCongruence.forwardApy v strategies (Renders.connect registry v.chainId) t

end VaultIndex.Dialogue
