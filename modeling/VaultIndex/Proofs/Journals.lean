import VaultIndex.Proofs.OracleWork

/-!
# Journals of oracles

A journal says which calls were made to an oracle and what it replied. Keeping it changes neither
what is computed nor what is asked (`Observes.forwardApy`).
-/

namespace VaultIndex

/-- A call to an oracle with its reply. -/
structure OracleExchange where
  call : OracleCall
  reply : Except ChainError U256

variable {m : Type → Type} [Monad m]

/-- An oracle that keeps a journal of the calls made to it and of its replies. -/
def AprOracle.journaled (oracle : AprOracle m) : AprOracle (StateT (List OracleExchange) m) :=
  fun call => do
    let reply ← oracle call
    modify (· ++ [⟨call, reply⟩])
    return reply

def OracleAdapter.journaled (a : OracleAdapter m) :
    OracleAdapter (StateT (List OracleExchange) m) := ⟨a.chain, a.ask.journaled⟩

/-- Chains whose oracles keep one journal. -/
def ChainSource.journaled (source : ChainSource m) :
    ChainSource (StateT (List OracleExchange) m) where
  eventSource chain := do
    let events ← source.eventSource chain
    return events.map fun ask filter => StateT.lift (ask filter)
  aprOracle chain address := do
    let oracle ← source.aprOracle chain address
    return oracle.map AprOracle.journaled

/-! ### Runs -/

variable {σ α β : Type} (a : OracleAdapter (StateM σ)) (t : Tally) (j : List OracleExchange) (s : σ)

lemma Activity.bind_run (x : Activity (StateM σ) α) (f : α → Activity (StateM σ) β) :
    (x >>= f) t s = f (x t s).1.1 (x t s).1.2 (x t s).2 := rfl

lemma Activity.outside_run (x : StateM σ α) :
    (outside x : Activity (StateM σ) α) t s = (((x s).1, t), (x s).2) := rfl

lemma Activity.count_run (c : Counter) (n : Nat) :
    (count c n : Activity (StateM σ) Unit) t s = (((), t.add c n), s) := rfl

/-- Work that consults an oracle which keeps a journal; `σ` is what its replies depend on. -/
abbrev Consulting (σ α : Type) := Activity (StateT (List OracleExchange) (StateM σ)) α

namespace Consulting

lemma bind_run (x : Consulting σ α) (f : α → Consulting σ β) :
    (x >>= f) t j s =
      f (x t j s).1.1.1 (x t j s).1.1.2 (x t j s).1.2 (x t j s).2 := rfl

lemma outside_run (x : StateT (List OracleExchange) (StateM σ) α) :
    (Activity.outside x : Consulting σ α) t j s =
      ((((x j s).1.1, t), (x j s).1.2), (x j s).2) := rfl

lemma ask_run (call : OracleCall) :
    (Activity.outside (a.journaled.ask call) : Consulting σ _) t j s =
      ((((a.ask call s).1, t), j ++ [⟨call, (a.ask call s).1⟩]), (a.ask call s).2) := rfl

lemma count_run (c : Counter) (n : Nat) :
    (Activity.count c n : Consulting σ Unit) t j s = ((((), t.add c n), j), s) := rfl

end Consulting

lemma ChainSource.aprOracle_journaled (source : ChainSource (StateM σ)) (chain : ChainId)
    (address : Address) :
    source.journaled.aprOracle chain address j s =
      (((source.aprOracle chain address s).1.map AprOracle.journaled, j),
        (source.aprOracle chain address s).2) := rfl

/-! ### Keeping a journal -/

/-- Work with a journal does what the same work does without one. -/
def Observes (x : Consulting σ α) (y : Activity (StateM σ) α) : Prop :=
  ∀ t j s, y t s = ((x t j s).1.1, (x t j s).2)

namespace Observes

variable {registry : ChainRegistry} {source : ChainSource (StateM σ)}

lemma isCongruence : Activity.IsCongruence (@Observes σ) where
  done _ := fun _ _ _ => rfl
  count _ _ := fun _ _ _ => rfl
  bind {α β x y f g} hx hf := by
    intro t j s
    have step : (y >>= g) t s = g (y t s).1.1 (y t s).1.2 (y t s).2 := rfl
    rw [step, hx t j s]
    exact hf _ _ _ _

lemma related : OracleAdapter.Related (@Observes σ) a.journaled a where
  chain_eq := rfl
  ask _ := fun _ _ _ => rfl

/-- Reaching an oracle leaves no mark in the journal. -/
lemma connect? (chain : ChainId) :
    OracleAdapter.connect? registry source.journaled chain t j s =
      let run := OracleAdapter.connect? registry source chain t s
      (((run.1.1.map OracleAdapter.journaled, run.1.2), j), run.2) := by
  cases deployed : (registry.get? chain).bind ChainConfig.aprOracle? with
  | none =>
    simp only [OracleAdapter.connect?, deployed]
    rfl
  | some address =>
    simp only [OracleAdapter.connect?, deployed]
    rw [Consulting.bind_run, Consulting.outside_run, source.aprOracle_journaled,
      Activity.bind_run, Activity.outside_run]
    cases (source.aprOracle chain address s).1 <;> rfl

theorem forwardApy (v : Vault) (strategies : List Strategy) :
    Observes (VaultIndex.forwardApy registry source.journaled v strategies)
      (VaultIndex.forwardApy registry source v strategies) := by
  apply isCongruence.forwardApy
  intro β f g unreached reached t j s
  rw [Consulting.bind_run, connect?, Activity.bind_run]
  rcases OracleAdapter.connect? registry source v.chainId t s with ⟨⟨connected, t'⟩, s'⟩
  cases connected with
  | none => exact unreached t' j s'
  | some a => exact reached _ a (related a) t' j s'

end Observes

end VaultIndex
