import VaultIndex.Proofs.Journals
import VaultIndex.Proofs.Liftings

/-!
# Journals of runs

A journal of a run says when the run looked whether it was cancelled, what it announced, which
reports it handed over and when it paused. Work that keeps one comes to the same as without it
(`Comes`).
-/

namespace VaultIndex

/-- What a journal says of a run. -/
inductive Occurrence (ε : Type) where
  | looked (cancelled : Bool)
  | announced (message : String)
  | published (report : IndexReport) (outcome : Except ε Unit)
  | paused (cancelled : Bool)

abbrev Journal (ε : Type) := List (Occurrence ε)

variable {m : Type → Type} [Monad m] {ε α β σ : Type}

/-- An act after which an entry is made in the journal. -/
def noted (act : m α) (entry : α → Occurrence ε) : StateT (Journal ε) m α := do
  let a ← act
  modify (· ++ [entry a])
  return a

/-- Surroundings in which a run keeps a journal. -/
def Surroundings.journaled (out : Surroundings m ε) : Surroundings (StateT (Journal ε) m) ε where
  source := out.source.lifted _
  isCancelled := noted out.isCancelled .looked
  now := liftM out.now
  notify message := noted (out.notify message) fun _ => .announced message
  publish report := noted (out.publish report) (.published report)
  pause interval := noted (out.pause interval) .paused

/-- Work beside which a journal is kept; `σ` is the world it depends on. -/
abbrev Noting (σ ε α : Type) := Activity (StateT (Journal ε) (StateM σ)) α

/-- From a tally and a state on, work with a journal and work without one come to the same result,
tally and state, and `entries` are made in the journal. -/
structure Comes (x : Noting σ ε α) (y : Activity (StateM σ) α) (t : Tally) (s : σ) (a : α)
    (entries : Journal ε) (t' : Tally) (s' : σ) : Prop where
  journaled : ∀ j, x t j s = (((a, t'), j ++ entries), s')
  plain : y t s = ((a, t'), s')

namespace Comes

variable {x : Noting σ ε α} {y : Activity (StateM σ) α} {t t' t'' : Tally} {s s' s'' : σ}
  {first later : Journal ε} {a : α} {b : β}

lemma done (a : α) : Comes (pure a : Noting σ ε α) (pure a) t s a [] t s where
  journaled j := by rw [List.append_nil]; rfl
  plain := rfl

lemma bind {f : α → Noting σ ε β} {g : α → Activity (StateM σ) β} (hx : Comes x y t s a first t' s')
    (hf : Comes (f a) (g a) t' s' b later t'' s'') :
    Comes (x >>= f) (y >>= g) t s b (first ++ later) t'' s'' where
  journaled j := by
    have step : (x >>= f) t j s =
        f (x t j s).1.1.1 (x t j s).1.1.2 (x t j s).1.2 (x t j s).2 := rfl
    rw [step, hx.journaled, hf.journaled, List.append_assoc]
  plain := by rw [Activity.bind_run, hx.plain, hf.plain]

lemma silently (y : Activity (StateM σ) α) (t : Tally) (s : σ) :
    ∃ a t' s', Comes (y.lifted (StateT (Journal ε) (StateM σ))) y t s a [] t' s' := by
  refine ⟨(y t s).1.1, (y t s).1.2, (y t s).2, fun j => ?_, rfl⟩
  rw [List.append_nil]
  rfl

lemma outside (act : StateM σ α) (t : Tally) (s : σ) :
    ∃ a s', Comes (Activity.outside (liftM act) : Noting σ ε α) (Activity.outside act) t s a [] t
      s' := by
  refine ⟨(act s).1, (act s).2, fun j => ?_, rfl⟩
  rw [List.append_nil]
  rfl

lemma noted (act : StateM σ α) (entry : α → Occurrence ε) (t : Tally) (s : σ) :
    ∃ a s', Comes (Activity.outside (VaultIndex.noted act entry)) (Activity.outside act) t s a
      [entry a] t s' :=
  ⟨(act s).1, (act s).2, fun _ => rfl, rfl⟩

end Comes

end VaultIndex
