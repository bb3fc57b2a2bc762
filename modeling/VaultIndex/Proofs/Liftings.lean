import VaultIndex.Index.Service
import VaultIndex.Proofs.OracleWork

/-!
# Work in a larger world

What is done in a world can be done in any larger one. Indexing a chain asks its sources and does
nothing else to the world, so that with lifted sources it is the lifted work
(`Indexer.indexChain_lifted`).
-/

namespace VaultIndex

variable {m : Type → Type} [Monad m]

section Lifted

variable (n : Type → Type) [Monad n] [MonadLiftT m n]

def EventSource.lifted (events : EventSource m) : EventSource n := fun filter =>
  liftM (events filter)

def AprOracle.lifted (oracle : AprOracle m) : AprOracle n := fun call => liftM (oracle call)

def OracleAdapter.lifted (a : OracleAdapter m) : OracleAdapter n := ⟨a.chain, a.ask.lifted n⟩

/-- Chains that are asked from a larger world. -/
def ChainSource.lifted (source : ChainSource m) : ChainSource n where
  eventSource chain :=
    Except.map (EventSource.lifted n) <$> (liftM (source.eventSource chain) : n _)
  aprOracle chain address :=
    Except.map (AprOracle.lifted n) <$> (liftM (source.aprOracle chain address) : n _)

def Activity.lifted {α : Type} (x : Activity m α) : Activity n α := fun t => liftM (x t)

end Lifted

variable {n : Type → Type} [Monad n] [MonadLiftT m n]

namespace Activity

variable {α β : Type}

lemma outside_map_bind [LawfulMonad n] (x : n α) (g : α → β) {γ : Type} (f : β → Activity n γ) :
    (outside (g <$> x) >>= f) = (outside x >>= fun a => f (g a)) := by
  funext t
  have step {δ : Type} (y : n δ) (k : δ → Activity n γ) :
      (outside y >>= k) t = (y >>= fun a => k a t) := by
    have run : (outside y >>= k) t = (y >>= fun a => pure (a, t)) >>= fun p => k p.1 p.2 := rfl
    rw [run]
    simp
  rw [step, step]
  simp

variable [LawfulMonadLiftT m n]

lemma lifted_pure (a : α) : (pure a : Activity m α).lifted n = pure a :=
  funext fun t => monadLift_pure (m := m) (n := n) (a, t)

lemma lifted_bind (x : Activity m α) (f : α → Activity m β) :
    (x >>= f).lifted n = x.lifted n >>= fun a => (f a).lifted n :=
  funext fun t => monadLift_bind (m := m) (n := n) (x t) _

lemma lifted_outside (act : m α) : (outside act).lifted n = outside (liftM act) := by
  funext t
  have run : outside act t = act >>= fun a => pure (a, t) := rfl
  rw [lifted, run]
  refine (monadLift_bind act _).trans (bind_congr fun a => ?_)
  exact monadLift_pure (a, t)

lemma lifted_count (c : Counter) (k : Nat) :
    (count c k : Activity m Unit).lifted n = count c k :=
  funext fun t => monadLift_pure (m := m) (n := n) ((), t.add c k)

lemma lifted_get : (get : Activity m Tally).lifted n = get :=
  funext fun t => monadLift_pure (m := m) (n := n) (t, t)

lemma lifted_set (t : Tally) : (set t : Activity m PUnit).lifted n = set t :=
  funext fun _ => monadLift_pure (m := m) (n := n) ((), t)

end Activity

/-! ### Harvests -/

open Activity (lifted_pure lifted_bind lifted_outside lifted_count lifted_get lifted_set
  outside_map_bind)

variable [LawfulMonadLiftT m n]

lemma filterVaultEvents_lifted (chain : ChainId) (events : EventSource m) (filter : EventFilter)
    (g : Gathered) :
    filterVaultEvents chain (EventSource.lifted n events) filter g =
      (filterVaultEvents chain events filter g).lifted n := by
  simp only [filterVaultEvents, lifted_bind, lifted_outside, lifted_get, lifted_set, lifted_pure]
  rfl

lemma Harvest.gather_lifted (chain : ChainId) (events : EventSource m)
    (filters : List EventFilter) (g : Gathered) :
    Harvest.gather chain (EventSource.lifted n events) filters g =
      (Harvest.gather chain events filters g).lifted n := by
  induction filters generalizing g with
  | nil => exact (lifted_pure g).symm
  | cons filter rest ih =>
    rw [gather, gather, lifted_bind, filterVaultEvents_lifted]
    exact bind_congr fun p => ih p.1

lemma harvest_lifted [LawfulMonad n] (source : ChainSource m) (chain : ChainId) (kind : EventKind)
    (range : Harvest.Range) (vaults : Table Address Vault) :
    harvest (source.lifted n) chain kind range vaults =
      (harvest source chain kind range vaults).lifted n := by
  rw [harvest, harvest, lifted_bind, lifted_outside, ChainSource.lifted, outside_map_bind]
  refine bind_congr fun reached => ?_
  cases reached with
  | error cause => exact (lifted_pure _).symm
  | ok events =>
    simp only [Except.map, Harvest.gather_lifted, lifted_bind, lifted_pure]

/-! ### Forward APYs -/

lemma OracleAdapter.connect?_lifted [LawfulMonad n] (registry : ChainRegistry)
    (source : ChainSource m) (chain : ChainId) :
    connect? registry (source.lifted n) chain =
      Option.map (OracleAdapter.lifted n) <$> (connect? registry source chain).lifted n := by
  rw [connect?, connect?]
  cases (registry.get? chain).bind ChainConfig.aprOracle? with
  | none => rw [lifted_pure, map_pure]; rfl
  | some address =>
    simp only
    rw [lifted_bind, lifted_outside, ChainSource.lifted, outside_map_bind, map_bind]
    refine bind_congr fun reached => ?_
    cases reached with
    | ok ask => rw [lifted_pure, map_pure]; rfl
    | error cause => rw [lifted_pure, map_pure]; rfl

variable (m n) in
/-- Work and what it is in a larger world. -/
def Lifts (α : Type) (x : Activity m α) (y : Activity n α) : Prop := y = x.lifted n

namespace Lifts

lemma isCongruence : Activity.IsCongruence (Lifts m n) where
  done a := (lifted_pure a).symm
  count c k := (lifted_count c k).symm
  bind {α β x y f g} hx hf := by
    have continued : g = fun a => (f a).lifted n := funext hf
    rw [Lifts, lifted_bind, hx, continued]

lemma related (a : OracleAdapter m) : OracleAdapter.Related (Lifts m n) a (a.lifted n) where
  chain_eq := rfl
  ask call := (lifted_outside (a.ask call)).symm

end Lifts

variable [LawfulMonad n]

lemma forwardApy_lifted (registry : ChainRegistry) (source : ChainSource m) (v : Vault)
    (strategies : List Strategy) :
    forwardApy registry (source.lifted n) v strategies =
      (forwardApy registry source v strategies).lifted n := by
  apply Lifts.isCongruence.forwardApy
  intro β f g unreached reached
  rw [Lifts, OracleAdapter.connect?_lifted, lifted_bind, bind_map_left]
  refine bind_congr fun connected => ?_
  cases connected with
  | none => exact unreached
  | some a => exact reached a _ (Lifts.related a)

lemma ForwardApy.addAll_lifted (registry : ChainRegistry) (source : ChainSource m)
    (strategies : Table Address (Table Address Strategy)) (vaults : List Vault)
    (apys : Table Address ForwardApy) :
    addAll registry (source.lifted n) strategies vaults apys =
      (addAll registry source strategies vaults apys).lifted n := by
  induction vaults generalizing apys with
  | nil => exact (lifted_pure _).symm
  | cons v rest ih =>
    rw [addAll, addAll, lifted_bind, forwardApy_lifted]
    exact bind_congr fun apy => ih _

theorem Indexer.indexChain_lifted (x : Indexer) (source : ChainSource m) (chain : ChainId)
    (c : ChainSnapshot) :
    x.indexChain (source.lifted n) chain c = (x.indexChain source chain c).lifted n := by
  simp only [indexChain, harvestManagementFees, harvestPerformanceFees, forwardApys,
    harvest_lifted, ForwardApy.addAll_lifted, lifted_bind, lifted_pure]

end VaultIndex
