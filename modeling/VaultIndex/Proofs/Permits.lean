import Mathlib.Logic.Relation
import VaultIndex.Proofs.Harvests

/-!
# Permits of a harvest

The tasks of a harvest take their permits out of a common stock and hand them back however they end.
The permits in stock and those of the open streams are always all that there are
(`PermitPool.Balanced`), which bounds the streams and lets some task go on until all are over
(`PermitPool.opens_each_stream_once`). Counting open streams, as pools do, comes to the same
(`PermitPool.reaches_iff`).
-/

namespace VaultIndex.Harvest

open Relation (ReflTransGen)

variable {chain : ChainId} {kind : EventKind} {range : Range}
  {stream : EventFilter → List StreamItem} {bound : Nat}

/-! ### Streams that were opened -/

/-- Whether a task has opened its stream. -/
def Progress.hasOpened : Progress → Bool
  | waiting => false
  | reading .. | finished | aborted => true

/-- What the tasks that no longer wait have asked. -/
def openers (tasks : List Task) : List EventFilter :=
  (tasks.filter (·.progress.hasOpened)).map (·.filter)

lemma openers_cons (t : Task) (tasks : List Task) : openers (t :: tasks) =
    if t.progress.hasOpened then t.filter :: openers tasks else openers tasks := by
  unfold openers
  rw [List.filter_cons]
  split <;> rfl

lemma openers_set {tasks : List Task} {i : Nat} {filter : EventFilter} {old new : Progress}
    (ht : tasks[i]? = some ⟨filter, old⟩) (hnew : new.hasOpened = true) :
    (openers (tasks.set i ⟨filter, new⟩)).Perm
      (if old.hasOpened then openers tasks else filter :: openers tasks) := by
  obtain ⟨before, after⟩ := perm_set ht ⟨filter, new⟩
  have was : (openers tasks).Perm _ := (before.filter _).map _
  have is : (openers (tasks.set i ⟨filter, new⟩)).Perm _ := (after.filter _).map _
  rw [← openers, openers_cons] at was is
  rw [if_pos hnew] at is
  cases hold : old.hasOpened with
  | true =>
    rw [if_pos hold] at was
    exact is.trans was.symm
  | false =>
    rw [if_neg (ne_true_of_eq_false hold)] at was
    exact is.trans (was.symm.cons filter)

namespace Pool

/-- The streams that were opened are, each once, those of the tasks that no longer wait. -/
structure OpensOnce (filters : List EventFilter) (p : Pool) : Prop where
  filters_eq : p.tasks.map (·.filter) = filters
  opened : p.opened.Perm (openers p.tasks)

namespace OpensOnce

variable {filters : List EventFilter} {p q : Pool} {i : Nat}

lemma start (filters : List EventFilter) (tally : Tally) :
    (Pool.start filters tally).OpensOnce filters where
  filters_eq := by simp [Pool.start, Function.comp_def]
  opened := by simp [Pool.start, openers, List.filter_map, Progress.hasOpened, Function.comp_def]

lemma move (hm : Move chain stream bound p i q) (h : p.OpensOnce filters) :
    q.OpensOnce filters := by
  have same {filter : EventFilter} {old new : Progress} (ht : p.tasks[i]? = some ⟨filter, old⟩) :
      (p.tasks.set i ⟨filter, new⟩).map (·.filter) = filters :=
    (map_set_of_eq (f := Task.filter) (b := ⟨filter, new⟩) ht rfl).trans h.filters_eq
  cases hm with
  | opens ht hb =>
    refine ⟨same ht, List.perm_append_comm.trans ?_⟩
    exact (h.opened.cons _).trans (openers_set ht rfl).symm
  | takes ht hi => exact ⟨same ht, h.opened.trans (openers_set ht rfl).symm⟩
  | ends ht => exact ⟨same ht, h.opened.trans (openers_set ht rfl).symm⟩
  | breaks ht => exact ⟨same ht, h.opened.trans (openers_set ht rfl).symm⟩

lemma subset (h : p.OpensOnce filters) : p.opened ⊆ filters := by
  rw [← h.filters_eq]
  exact List.Subset.trans h.opened.subset (List.filter_sublist.map _).subset

/-- No vault is asked about twice where no two filters are about one vault. -/
lemma nodup (h : p.OpensOnce filters) (distinct : (filters.map (·.address)).Nodup) :
    (p.opened.map (·.address)).Nodup := by
  rw [← h.filters_eq] at distinct
  rw [(h.opened.map _).nodup_iff]
  exact distinct.sublist ((List.filter_sublist.map _).map _)

/-- When all tasks are over, every stream has been opened. -/
lemma perm_of_isOver (h : p.OpensOnce filters) (ended : p.isOver = true) :
    p.opened.Perm filters := by
  have all : p.tasks.filter (·.progress.hasOpened) = p.tasks := by
    rw [List.filter_eq_self]
    intro t ht
    have isOver := List.all_eq_true.1 ended t ht
    cases hp : t.progress <;> simp_all [Progress.isOver, Progress.hasOpened]
  have opened := h.opened
  rwa [openers, all, h.filters_eq] at opened

end OpensOnce

end Pool

/-! ### A stock of permits -/

/-- A pool whose tasks take their permits out of a common stock. -/
structure PermitPool where
  pool : Pool
  /-- The permits that no task holds. -/
  free : Nat

namespace PermitPool

/-- A task that waits can be handed a permit that is free. It holds the permit while its stream is
open, and hands it back when the stream has ended and when it has broken down. -/
inductive Step (chain : ChainId) (stream : EventFilter → List StreamItem) :
    PermitPool → PermitPool → Prop where
  | acquires {p : Pool} {free i : Nat} {filter : EventFilter}
      (ht : p.tasks[i]? = some ⟨filter, .waiting⟩) :
      Step chain stream ⟨p, free + 1⟩
        ⟨{ p with tasks := p.tasks.set i ⟨filter, .reading (stream filter) 0⟩
                  opened := p.opened ++ [filter] }, free⟩
  | takes {p : Pool} {free i : Nat} {filter : EventFilter} {item : StreamItem}
      {rest : List StreamItem} {added : Nat}
      (ht : p.tasks[i]? = some ⟨filter, .reading (item :: rest) added⟩) (hi : item ≠ .breakdown) :
      Step chain stream ⟨p, free⟩
        ⟨{ p with
            tasks := p.tasks.set i ⟨filter, .reading rest
              (Intake.take chain filter ⟨p.gathered, p.tally, added⟩ item).added⟩
            gathered := (Intake.take chain filter ⟨p.gathered, p.tally, added⟩ item).gathered
            tally := (Intake.take chain filter ⟨p.gathered, p.tally, added⟩ item).tally }, free⟩
  | ends {p : Pool} {free i : Nat} {filter : EventFilter} {added : Nat}
      (ht : p.tasks[i]? = some ⟨filter, .reading [] added⟩) :
      Step chain stream ⟨p, free⟩
        ⟨{ p with tasks := p.tasks.set i ⟨filter, .finished⟩
                  tally := (Intake.finish chain filter ⟨p.gathered, p.tally, added⟩).tally },
          free + 1⟩
  | breaks {p : Pool} {free i : Nat} {filter : EventFilter} {rest : List StreamItem} {added : Nat}
      (ht : p.tasks[i]? = some ⟨filter, .reading (.breakdown :: rest) added⟩) :
      Step chain stream ⟨p, free⟩
        ⟨{ p with tasks := p.tasks.set i ⟨filter, .aborted⟩ }, free + 1⟩

/-- The permits in stock and those of the open streams are all that there are. -/
def Balanced (bound : Nat) (s : PermitPool) : Prop := s.free + s.pool.openStreams = bound

variable {s s' : PermitPool} {p q : Pool} {free : Nat}

/-- A task may go on if what it takes or gives back is what the stock loses or gains. -/
lemma Balanced.replace {i free' : Nat} {old new : Task} (h : Balanced bound ⟨p, free⟩)
    (ht : p.tasks[i]? = some old) (hq : q.tasks = p.tasks.set i new)
    (permit : free + (if old.progress.isOpen then 1 else 0) =
      free' + (if new.progress.isOpen then 1 else 0)) :
    Balanced bound ⟨q, free'⟩ := by
  obtain ⟨before, after⟩ := perm_set ht new
  have was := before.countP_eq (·.progress.isOpen)
  have is := after.countP_eq (·.progress.isOpen)
  rw [List.countP_cons] at was is
  simp only [Balanced, Pool.openStreams, hq] at h ⊢
  omega

lemma Step.balanced (h : Step chain stream s s') (hs : s.Balanced bound) : s'.Balanced bound := by
  cases h with
  | acquires ht => exact hs.replace ht rfl rfl
  | takes ht hi => exact hs.replace ht rfl rfl
  | ends ht => exact hs.replace ht rfl rfl
  | breaks ht => exact hs.replace ht rfl rfl

/-- A permit is free where fewer streams are open than there are permits: steps are moves. -/
lemma Step.exists_move (h : Step chain stream s s') (hs : s.Balanced bound) :
    ∃ i, Pool.Move chain stream bound s.pool i s'.pool := by
  cases h with
  | @acquires p free i filter ht =>
    simp only [Balanced] at hs
    exact ⟨i, .opens ht (show p.openStreams < bound by omega)⟩
  | takes ht hi => exact ⟨_, .takes ht hi⟩
  | ends ht => exact ⟨_, .ends ht⟩
  | breaks ht => exact ⟨_, .breaks ht⟩

lemma exists_step {i : Nat} (h : Pool.Move chain stream bound p i q)
    (hs : Balanced bound ⟨p, free⟩) : ∃ free', Step chain stream ⟨p, free⟩ ⟨q, free'⟩ := by
  cases h with
  | opens ht hb =>
    simp only [Balanced] at hs
    obtain ⟨rest, rfl⟩ : ∃ rest, free = rest + 1 := ⟨free - 1, by omega⟩
    exact ⟨rest, .acquires ht⟩
  | takes ht hi => exact ⟨free, .takes ht hi⟩
  | ends ht => exact ⟨free + 1, .ends ht⟩
  | breaks ht => exact ⟨free + 1, .breaks ht⟩

/-! ### Runs -/

lemma balanced_of_run (run : ReflTransGen (Step chain stream) s s') (hs : s.Balanced bound) :
    s'.Balanced bound := by
  induction run with
  | refl => exact hs
  | tail _ step ih => exact step.balanced ih

/-- Permits that are handed out of a stock let pools reach what counting open streams lets them
reach. -/
theorem reaches_iff (hs : Balanced bound ⟨p, free⟩) :
    p.Reaches chain stream bound q ↔
      ∃ free', ReflTransGen (Step chain stream) ⟨p, free⟩ ⟨q, free'⟩ := by
  constructor
  · intro run
    induction run with
    | refl => exact ⟨free, .refl⟩
    | step i _ move ih =>
      obtain ⟨between, run⟩ := ih
      obtain ⟨left, step⟩ := exists_step (.of_move? move) (balanced_of_run run hs)
      exact ⟨left, run.tail step⟩
  · rintro ⟨free', run⟩
    have reached {s} (run : ReflTransGen (Step chain stream) ⟨p, free⟩ s) :
        p.Reaches chain stream bound s.pool := by
      induction run with
      | refl => exact .refl p
      | tail earlier step ih =>
        obtain ⟨i, move⟩ := step.exists_move (balanced_of_run earlier hs)
        exact .step i ih move.move?_eq
    exact reached run

/-- The tasks of a harvest before any of them has moved, and all permits. -/
def start (filters : List EventFilter) (tally : Tally) (permits : Nat) : PermitPool :=
  ⟨.start filters tally, permits⟩

lemma balanced_start (filters : List EventFilter) (tally : Tally) (bound : Nat) :
    (start filters tally bound).Balanced bound := by
  have none : (Pool.start filters tally).openStreams = 0 := by
    simp [Pool.openStreams, Pool.start, List.countP_eq_zero, Progress.isOpen]
  rw [Balanced, start, none, Nat.add_zero]

section Vaults

variable {vaults : Table Address Vault} {order : List (Address × Vault)}

/-- What a harvest asks: about a vault of the chain, from the start of the range or else from the
vault's activation on, to the end of the range. -/
def IsAsked (chain : ChainId) (kind : EventKind) (range : Range) (vaults : Table Address Vault)
    (f : EventFilter) : Prop :=
  ∃ v, vaults.get? f.address = some v ∧ v.chainId = chain ∧ f.kind = kind ∧
    f.fromBlock = (if range.start = 0 then v.activation else range.start) ∧ f.toBlock = range.stop

lemma mem_filters_iff_isAsked (ho : order.Perm vaults.entries) {f : EventFilter} :
    f ∈ filters chain kind range order ↔ IsAsked chain kind range vaults f := by
  rw [mem_filters]
  constructor
  · rintro ⟨address, v, hmem, hc, rfl⟩
    exact ⟨v, (Table.get?_eq_some_iff _ _ _).2 (ho.mem_iff.1 hmem), hc, rfl, rfl, rfl⟩
  · rintro ⟨v, hv, hc, hkind, hfrom, hto⟩
    refine ⟨f.address, v, ho.mem_iff.2 ((Table.get?_eq_some_iff _ _ _).1 hv), hc, ?_⟩
    rw [filterOf, ← hkind, ← hfrom, ← hto]

/-- However the tasks of a harvest move, no more streams are open than there are permits, some task
can go on unless all are over, and no vault is asked about twice. When all are over, every vault of
the chain has been asked about, and no other. -/
theorem opens_each_stream_once (stream : EventFilter → List StreamItem) (chain : ChainId)
    (kind : EventKind) (range : Range) (ho : order.Perm vaults.entries) (maxConcurrency : Nat)
    (tally : Tally)
    (run : ReflTransGen (Step chain stream)
      (start (filters chain kind range order) tally (permits maxConcurrency)) s) :
    s.pool.openStreams ≤ max 1 (min maxConcurrency maxPermits) ∧
    (s.pool.isOver = false → ∃ s', Step chain stream s s') ∧
    (s.pool.opened.map (·.address)).Nodup ∧
    (∀ f ∈ s.pool.opened, IsAsked chain kind range vaults f) ∧
    (s.pool.isOver = true → ∀ f, IsAsked chain kind range vaults f → f ∈ s.pool.opened) := by
  obtain ⟨p, free⟩ := s
  have started :=
    balanced_start (filters chain kind range order) tally (permits maxConcurrency)
  have balanced : free + p.openStreams = permits maxConcurrency := balanced_of_run run started
  have reached := (reaches_iff started).2 ⟨free, run⟩
  have once := reached.preserves (fun move => Pool.OpensOnce.move (.of_move? move)) (.start _ tally)
  refine ⟨?_, ?_, once.nodup (nodup_filters ho), ?_, ?_⟩
  · exact Nat.le.intro ((Nat.add_comm _ _).trans balanced)
  · intro unfinished
    obtain ⟨i, q, move⟩ : ∃ i q, Pool.Move chain stream (permits maxConcurrency) p i q :=
      Pool.exists_move (permits_pos maxConcurrency) unfinished
    obtain ⟨left, step⟩ := exists_step move balanced
    exact ⟨⟨q, left⟩, step⟩
  · intro f hf
    exact (mem_filters_iff_isAsked ho).1 (once.subset hf)
  · intro ended f asked
    exact (once.perm_of_isOver ended).mem_iff.2 ((mem_filters_iff_isAsked ho).2 asked)

end Vaults

/-- A concurrency of zero, for two vaults of which the first one's stream breaks down at once: its
permit is handed on to the second one. -/
theorem opens_each_stream_once_after_breakdown :
    let stream : EventFilter → List StreamItem := fun filter =>
      if filter.address = .zero then [.breakdown] else [.failure (.decode "no event")]
    let vaults : Table Address Vault := .ofList
      [(.zero, .new 1 .zero "3.0.0"), (⟨1⟩, .new 1 ⟨1⟩ "3.0.0"), (⟨2⟩, .new 10 ⟨2⟩ "3.0.0")]
    let begun := start (filters 1 .managementFee {} vaults.entries) {} (permits 0)
    ∃ s, ReflTransGen (Step 1 stream) begun s ∧ s.pool.isOver = true ∧
      s.pool.openStreams ≤ 1 ∧ (s.pool.opened.map (·.address)).Nodup ∧
      (∀ f ∈ s.pool.opened, IsAsked 1 .managementFee {} vaults f) ∧
      ∀ f, IsAsked 1 .managementFee {} vaults f → f ∈ s.pool.opened := by
  intro stream vaults begun
  obtain ⟨p, reached, ended⟩ : ∃ p, Pool.Reaches 1 stream (permits 0) begun.pool p ∧
      p.isOver = true := Pool.exists_reaches_over 1 stream (permits_pos 0) _
  obtain ⟨free, run⟩ := (reaches_iff (balanced_start _ _ _)).1 reached
  obtain ⟨bounded, -, distinct, asked, all⟩ :=
    opens_each_stream_once stream 1 .managementFee {} (.refl _) 0 {} run
  exact ⟨⟨p, free⟩, run, ended, bounded, distinct, asked, all ended⟩

end PermitPool

end VaultIndex.Harvest
