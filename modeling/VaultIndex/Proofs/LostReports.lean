import VaultIndex.Proofs.Passes

/-!
# Reports that are lost

Reports are handed over to a place that nothing else sees. What becomes of them there does not
change a run with an interval: it makes the same passes and announcements and ends in the same way.
A single pass hands over one report, and what becomes of it is the outcome of the run
(`Indexer.run_undisturbed_by_lost_reports`).
-/

namespace VaultIndex

variable {ε σ τ τ' α β : Type}

/-- What is done in a part of the world is done in the world. -/
instance monadLiftPart : MonadLift (StateM σ) (StateM (σ × τ)) where
  monadLift act world := ((act world.1).1, ((act world.1).2, world.2))

instance lawfulMonadLiftPart : LawfulMonadLift (StateM σ) (StateM (σ × τ)) where
  monadLift_pure _ := rfl
  monadLift_bind _ _ := rfl

/-- The same surroundings, but for a place of their own to which reports are handed over. -/
def Surroundings.redirected (out : Surroundings (StateM σ) ε)
    (write : IndexReport → StateM τ (Except ε Unit)) : Surroundings (StateM (σ × τ)) ε where
  source := out.source.lifted _
  isCancelled := liftM out.isCancelled
  now := liftM out.now
  notify message := liftM (out.notify message)
  publish report world := ((write report world.2).1, (world.1, (write report world.2).2))
  pause interval := liftM (out.pause interval)

/-- What is noted where a report is handed over. -/
def Occurrence.handedOver : Occurrence ε → Occurrence ε
  | .published report _ => .published report (.ok ())
  | .looked cancelled => .looked cancelled
  | .announced message => .announced message
  | .paused cancelled => .paused cancelled

/-! ### Work that hands nothing over -/

/-- Work in a world with a place for reports that leaves the place alone, and the same work in the
world without it. -/
def Beside (x : Noting (σ × τ) ε α) (y : Noting σ ε α) : Prop :=
  ∀ t j s w, x t j (s, w) = ((y t j s).1, ((y t j s).2, w))

namespace Beside

lemma done (a : α) : Beside (pure a : Noting (σ × τ) ε α) (pure a) := fun _ _ _ _ => rfl

lemma bind {x : Noting (σ × τ) ε α} {y : Noting σ ε α} {f : α → Noting (σ × τ) ε β}
    {g : α → Noting σ ε β} (hx : Beside x y) (hf : ∀ a, Beside (f a) (g a)) :
    Beside (x >>= f) (y >>= g) := by
  intro t j s w
  have step : (x >>= f) t j (s, w) = f (x t j (s, w)).1.1.1 (x t j (s, w)).1.1.2
      (x t j (s, w)).1.2 (x t j (s, w)).2 := rfl
  rw [step, hx]
  exact hf _ _ _ _ _

lemma noted (act : StateM σ α) (entry : α → Occurrence ε) :
    Beside (Activity.outside (VaultIndex.noted (liftM act : StateM (σ × τ) α) entry))
      (Activity.outside (VaultIndex.noted act entry)) := fun _ _ _ _ => rfl

lemma outside (act : StateM σ α) :
    Beside (Activity.outside (liftM (liftM act : StateM (σ × τ) α)) : Noting (σ × τ) ε α)
      (Activity.outside (liftM act)) := fun _ _ _ _ => rfl

lemma lifted (y : Activity (StateM σ) α) :
    Beside ((y.lifted (StateM (σ × τ))).lifted _ : Noting (σ × τ) ε α) (y.lifted _) :=
  fun _ _ _ _ => rfl

/-- What is done after work that hands nothing over goes on from its result. -/
lemma bind_run {x : Noting (σ × τ) ε α} {y : Noting σ ε α} (hx : Beside x y)
    {y₀ : Activity (StateM σ) α} {t t' : Tally} {s s' : σ} {a : α} {entries : Journal ε}
    (hy : Comes y y₀ t s a entries t' s') (f : α → Noting (σ × τ) ε β) (j : Journal ε) (w : τ) :
    (x >>= f) t j (s, w) = f a t' (j ++ entries) (s', w) := by
  have step : (x >>= f) t j (s, w) = f (x t j (s, w)).1.1.1 (x t j (s, w)).1.1.2
      (x t j (s, w)).1.2 (x t j (s, w)).2 := rfl
  rw [step, hx, hy.journaled]

end Beside

namespace Indexer

variable (x : Indexer) (out : Surroundings (StateM σ) ε)
  (write : IndexReport → StateM τ (Except ε Unit))

lemma beside_visit (announces : Bool) (l : List (ChainId × ChainSnapshot)) (pass : Pass) :
    Beside (x.visit (out.redirected write).journaled announces l pass)
      (x.visit out.journaled announces l pass) := by
  induction l generalizing pass with
  | nil => exact .done pass
  | cons e rest ih =>
    obtain ⟨chain, c⟩ := e
    simp only [visit]
    refine (Beside.noted out.isCancelled .looked).bind fun cancelled => ?_
    cases cancelled with
    | true => exact .done pass
    | false =>
      cases known : x.registry.contains chain with
      | false => exact ih pass
      | true =>
        have indexed : Beside (x.indexChain (out.redirected write).journaled.source chain c)
            (x.indexChain out.journaled.source chain c) := by
          simp only [Surroundings.journaled, Surroundings.redirected, x.indexChain_lifted]
          exact .lifted _
        refine indexed.bind fun report => ?_
        cases announces with
        | false => exact ih _
        | true => exact (Beside.noted (out.notify _) _).bind fun _ => ih _

lemma beside_runOnce (announces : Bool) (tracker : InitializationTracker) :
    Beside (x.runOnce (out.redirected write).journaled announces tracker)
      (x.runOnce out.journaled announces tracker) := by
  refine (x.beside_visit out write announces _ _).bind fun pass => ?_
  exact (Beside.outside out.now).bind fun time => .done _

end Indexer

/-! ### Two runs of which reports are lost -/

/-- Work in two worlds that differ in what becomes of reports; the same comes of it otherwise. -/
def Agree (x : Noting (σ × τ) ε α) (y : Noting (σ × τ') ε α) : Prop :=
  ∀ t j j' s w w', j.map Occurrence.handedOver = j'.map Occurrence.handedOver →
    (x t j (s, w)).1.1 = (y t j' (s, w')).1.1 ∧
    (x t j (s, w)).1.2.map Occurrence.handedOver = (y t j' (s, w')).1.2.map Occurrence.handedOver ∧
    (x t j (s, w)).2.1 = (y t j' (s, w')).2.1

namespace Agree

lemma done (a : α) : Agree (pure a : Noting (σ × τ) ε α) (pure a : Noting (σ × τ') ε α) :=
  fun _ _ _ _ _ _ same => ⟨rfl, same, rfl⟩

lemma bind {x : Noting (σ × τ) ε α} {y : Noting (σ × τ') ε α} {f : α → Noting (σ × τ) ε β}
    {g : α → Noting (σ × τ') ε β} (hx : Agree x y) (hf : ∀ a, Agree (f a) (g a)) :
    Agree (x >>= f) (y >>= g) := by
  intro t j j' s w w' same
  obtain ⟨values, journals, states⟩ := hx t j j' s w w' same
  have left : (x >>= f) t j (s, w) = f (x t j (s, w)).1.1.1 (x t j (s, w)).1.1.2
      (x t j (s, w)).1.2 ((x t j (s, w)).2.1, (x t j (s, w)).2.2) := rfl
  have right : (y >>= g) t j' (s, w') = g (y t j' (s, w')).1.1.1 (y t j' (s, w')).1.1.2
      (y t j' (s, w')).1.2 ((y t j' (s, w')).2.1, (y t j' (s, w')).2.2) := rfl
  rw [left, right, values, states]
  exact hf _ _ _ _ _ _ _ journals

/-- Work that hands nothing over does not depend on what becomes of reports. -/
lemma of_beside {x : Noting (σ × τ) ε α} {x' : Noting (σ × τ') ε α} {y : Noting σ ε α}
    (hx : Beside x y) (hx' : Beside x' y) (y₀ : Activity (StateM σ) α)
    (hy : ∀ t s, ∃ a entries t' s', Comes y y₀ t s a entries t' s') : Agree x x' := by
  intro t j j' s w w' same
  obtain ⟨a, entries, t', s', comes⟩ := hy t s
  rw [hx, hx', comes.journaled, comes.journaled]
  refine ⟨rfl, ?_, rfl⟩
  rw [List.map_append, List.map_append, same]

lemma noted (act : StateM σ α) (entry : α → Occurrence ε) :
    Agree (Activity.outside (VaultIndex.noted (liftM act : StateM (σ × τ) α) entry))
      (Activity.outside (VaultIndex.noted (liftM act : StateM (σ × τ') α) entry)) := by
  refine of_beside (.noted act entry) (.noted act entry) (Activity.outside act) fun t s => ?_
  obtain ⟨a, s', comes⟩ := Comes.noted act entry t s
  exact ⟨a, _, t, s', comes⟩

/-- Where nothing depends on what became of a report, the rest may go on from it. -/
lemma publish (out : Surroundings (StateM σ) ε) (write : IndexReport → StateM τ (Except ε Unit))
    (write' : IndexReport → StateM τ' (Except ε Unit)) (report : IndexReport)
    {x : Noting (σ × τ) ε α} {y : Noting (σ × τ') ε α} (h : Agree x y) :
    Agree (Activity.outside ((out.redirected write).journaled.publish report) >>= fun _ => x)
      (Activity.outside ((out.redirected write').journaled.publish report) >>= fun _ => y) := by
  intro t j j' s w w' same
  refine h t (j ++ [.published report (write report w).1])
    (j' ++ [.published report (write' report w').1]) s _ _ ?_
  rw [List.map_append, List.map_append, same]
  rfl

end Agree

namespace Indexer

variable (x : Indexer) (out : Surroundings (StateM σ) ε)
  (write : IndexReport → StateM τ (Except ε Unit))
  (write' : IndexReport → StateM τ' (Except ε Unit))

lemma agree_runPasses {time : Duration} (repeated : x.interval = some time) (limit : Nat)
    (isFirst : Bool) (tracker : InitializationTracker) :
    Agree (x.runPasses (out.redirected write).journaled limit isFirst tracker)
      (x.runPasses (out.redirected write').journaled limit isFirst tracker) := by
  induction limit generalizing isFirst tracker with
  | zero => exact .done none
  | succ limit ih =>
    simp only [runPasses, repeated]
    refine (Agree.noted out.isCancelled .looked).bind fun cancelled => ?_
    cases cancelled with
    | true => exact .done _
    | false =>
      have once : Agree (x.runOnce (out.redirected write).journaled isFirst tracker)
          (x.runOnce (out.redirected write').journaled isFirst tracker) := by
        refine .of_beside (x.beside_runOnce out write _ _) (x.beside_runOnce out write' _ _)
          (x.runOnce out isFirst tracker) fun t s => ?_
        obtain ⟨report, tracker', entries, t', s', comes, -⟩ :=
          x.comes_runOnce out isFirst tracker t s
        exact ⟨_, entries, t', s', comes⟩
      refine once.bind fun made => ?_
      refine Agree.publish out write write' made.1 ?_
      refine (Agree.noted (out.pause time) .paused).bind fun stopped => ?_
      cases stopped with
      | true => exact .done _
      | false => exact ih false made.2

/-- A run without an interval looks once whether it is cancelled; if it is not, it makes a pass and
hands its report over. -/
lemma run_once (once : x.interval = none) (limit : Nat) (isFirst : Bool)
    (tracker : InitializationTracker) (t : Tally) (s : σ) (w : τ) :
    let run := x.runPasses (out.redirected write).journaled (limit + 1) isFirst tracker t [] (s, w)
    let start := out.isCancelled s
    if start.1 then run = (((some (.ok ()), t), [.looked true]), (start.2, w))
    else
      let made := x.runOnce out isFirst tracker t start.2
      ∃ p, x.Makes isFirst tracker p ∧ run.1.2 = p.entries ++ [.published p.report p.outcome] ∧
        run.1.2.passes = [p] ∧ run.1.1.1 = some p.outcome ∧
        write p.report w = (p.outcome, run.2.2) ∧
        p.report = made.1.1.1 ∧ run.1.1.2 = made.1.2 ∧ run.2.1 = made.2 := by
  intro run start
  obtain ⟨cancelled, s₁, look⟩ :=
    Comes.noted out.isCancelled (Occurrence.looked : Bool → Occurrence ε) t s
  have seen : start = (cancelled, s₁) :=
    congrArg (fun (step : (Bool × Tally) × σ) => (step.1.1, step.2)) look.plain
  have begun : run = _ := (Beside.noted out.isCancelled .looked).bind_run look _ [] w
  rw [seen]
  cases cancelled with
  | true =>
    rw [if_pos rfl]
    exact begun
  | false =>
    obtain ⟨report, tracker', entries, t₂, s₂, comes, visited⟩ :=
      x.comes_runOnce out isFirst tracker t s₁
    have made : run = _ :=
      begun.trans ((x.beside_runOnce out write isFirst tracker).bind_run comes _ _ w)
    simp only [once] at made
    rw [if_neg Bool.false_ne_true, comes.plain, made]
    let p : PassRecord ε := ⟨.looked false :: entries, report, (write report w).1⟩
    exact ⟨p, ⟨entries, rfl, visited⟩, rfl, visited.passes_eq p.outcome [], rfl, rfl, rfl, rfl, rfl⟩

end Indexer

/-! ### What journals tell of such runs -/

namespace Journal

lemma messages_handedOver (journal : Journal ε) :
    messages (journal.map Occurrence.handedOver) = messages journal := by
  rw [messages, List.filterMap_map]
  refine List.filterMap_congr fun entry _ => ?_
  cases entry <;> rfl

/-- Passes and the reports that they make do not depend on what becomes of the reports. -/
lemma passesFrom_handedOver (begun journal : Journal ε) :
    (passesFrom begun (journal.map Occurrence.handedOver)).map (fun p => (p.entries, p.report)) =
      (passesFrom begun journal).map fun p => (p.entries, p.report) := by
  induction journal generalizing begun with
  | nil => rfl
  | cons entry rest ih =>
    cases entry with
    | looked cancelled => exact ih _
    | announced message => exact ih _
    | published report outcome => exact congrArg ((begun, report) :: ·) (ih [])
    | paused cancelled => exact ih []

/-- There is a pass for each report that was handed over. -/
lemma length_passesFrom (begun journal : Journal ε) :
    (passesFrom begun journal).length = journal.countP (·.isPublished) := by
  induction journal generalizing begun with
  | nil => rfl
  | cons entry rest ih =>
    cases entry with
    | looked cancelled => exact ih _
    | announced message => exact ih _
    | published report outcome =>
      rw [passesFrom, List.length_cons, ih, List.countP_cons_of_pos rfl]
    | paused cancelled => exact ih []

/-- Whether the last thing a run did was to see that it is cancelled. -/
def isStopped (journal : Journal ε) : Bool :=
  journal.getLast?.any fun
    | .looked cancelled | .paused cancelled => cancelled
    | .announced _ | .published .. => false

lemma isStopped_append (earlier later : Journal ε) (hl : later ≠ []) :
    isStopped (earlier ++ later) = isStopped later := by
  rw [isStopped, List.getLast?_append_of_ne_nil _ hl, isStopped]

lemma isStopped_paused (later : Journal ε) :
    isStopped (.paused false :: later) = isStopped later := by
  cases later with
  | nil => rfl
  | cons entry rest => exact isStopped_append [.paused false] _ (List.cons_ne_nil _ _)

end Journal

/-- With an interval a run has ended exactly if it has seen that it is cancelled, and then without a
failure. -/
lemma Course.result_eq {x : Indexer} {isFirst : Bool} {tracker : InitializationTracker}
    {journal : Journal ε} {result : Option (Except ε Unit)}
    (h : Course x isFirst tracker journal result) (repeated : x.interval.isSome = true) :
    result = if journal.isStopped then some (.ok ()) else none := by
  induction h with
  | unfinished => rfl
  | cancelled => rfl
  | single once visited => simp [once] at repeated
  | stopped _ visited =>
    rw [Journal.isStopped_append _ _ (List.cons_ne_nil _ _)]
    rfl
  | @goesOn _ _ _ entries report outcome later _ _ visited _ ih =>
    have last : Journal.isStopped (.looked false :: entries ++
        .published report outcome :: .paused false :: later) = Journal.isStopped later := by
      rw [Journal.isStopped_append _ _ (List.cons_ne_nil _ _)]
      exact (Journal.isStopped_append [.published report outcome] _ (List.cons_ne_nil _ _)).trans
        (Journal.isStopped_paused later)
    rw [ih, last]

namespace Indexer

/-- A run that has not ended has made as many passes as it may. -/
lemma length_passes_of_unfinished (x : Indexer) (out : Surroundings (StateM σ) ε) (limit : Nat)
    (t : Tally) (s : σ) :
    let run := x.run out.journaled limit t [] s
    run.1.1.1 = none → run.1.2.passes.length = limit := by
  obtain ⟨result, journal, t', s', comes, -, all⟩ :=
    x.comes_runPasses out limit true { total := x.indexedChains } t s
  intro run
  have ran : run = (((result, t'), journal), s') := comes.journaled []
  rw [ran, Journal.passes, Journal.length_passesFrom]
  exact all

/-- Whatever becomes of reports, a run follows a course, and with an interval it makes the same
passes, reports and announcements, counts the same and comes to the same end. That is no failure,
and it is come to only by being cancelled; other runs make as many passes as they may. A run without
an interval that is not cancelled at its start makes a single pass, and its outcome is what becomes
of the report of this pass; one that is cancelled hands nothing over. -/
theorem run_undisturbed_by_lost_reports (x : Indexer) (out : Surroundings (StateM σ) ε)
    (write : IndexReport → StateM τ (Except ε Unit))
    (write' : IndexReport → StateM τ' (Except ε Unit)) (limit : Nat) (t : Tally) (s : σ) (w : τ)
    (w' : τ') :
    let run := x.run (out.redirected write).journaled (limit + 1) t [] (s, w)
    let run' := x.run (out.redirected write').journaled (limit + 1) t [] (s, w')
    let result := run.1.1.1
    let journal := run.1.2
    let journal' := run'.1.2
    x.run (out.redirected write) (limit + 1) t (s, w) = (run.1.1, run.2) ∧
    Course x true { total := x.indexedChains } journal result ∧
    match x.interval with
    | some _ =>
      journal.passes.map (fun p => (p.entries, p.report)) =
        journal'.passes.map (fun p => (p.entries, p.report)) ∧
      journal.messages = journal'.messages ∧
      run.1.1 = run'.1.1 ∧
      run.2.1 = run'.2.1 ∧
      (result = if journal.isStopped then some (.ok ()) else none) ∧
      (result = none → journal.passes.length = limit + 1)
    | none =>
      let start := out.isCancelled s
      if start.1 then run = (((some (.ok ()), t), [.looked true]), (start.2, w))
      else
        let made := x.runOnce out true { total := x.indexedChains } t start.2
        ∃ p, x.Makes true { total := x.indexedChains } p ∧
          journal = p.entries ++ [.published p.report p.outcome] ∧
          journal.passes = [p] ∧ result = some p.outcome ∧
          write p.report w = (p.outcome, run.2.2) ∧
          p.report = made.1.1.1 ∧ run.1.1.2 = made.1.2 ∧ run.2.1 = made.2 := by
  intro run run' result journal journal'
  obtain ⟨plain, course⟩ : _ ∧ Course x true _ journal result :=
    x.run_course (out.redirected write) (limit + 1) t (s, w)
  refine ⟨plain, course, ?_⟩
  cases interval : x.interval with
  | some time =>
    obtain ⟨ends, journals, worlds⟩ : run.1.1 = run'.1.1 ∧
        journal.map Occurrence.handedOver = journal'.map Occurrence.handedOver ∧
          run.2.1 = run'.2.1 :=
      x.agree_runPasses out write write' interval (limit + 1) true _ t [] [] s w w' rfl
    refine ⟨?_, ?_, ends, worlds, course.result_eq (by rw [interval]; rfl), ?_⟩
    · rw [Journal.passes, ← Journal.passesFrom_handedOver, journals]
      exact Journal.passesFrom_handedOver [] journal'
    · rw [← Journal.messages_handedOver, journals]
      exact Journal.messages_handedOver journal'
    · exact x.length_passes_of_unfinished (out.redirected write) (limit + 1) t (s, w)
  | none => exact x.run_once out write interval limit true _ t s w

/-- Every second report of a run is lost; its passes are those of a run that loses none. Of the runs
without an interval, the one that makes a pass fails as its report is lost, and the other one is
cancelled at its start. -/
theorem runs_undisturbed_by_every_second_report :
    let out (looks : Nat) : Surroundings (StateM Nat) Unit :=
      { sourceless looks with publish := fun _ => pure (.ok ()) }
    let write : IndexReport → StateM Nat (Except Unit Unit) := fun _ n =>
      (if n % 2 = 0 then .error () else .ok (), n + 1)
    let x := ofSnapshot [1, 5, 10]
    let run := x.run ((out 6).redirected write).journaled (2 + 1) {} [] (0, 0)
    let run' := x.run ((out 6).redirected (out 6).publish).journaled (2 + 1) {} [] (0, 0)
    let single : Indexer := { x with interval := none }
    let once (looks : Nat) :=
      single.run ((out looks).redirected write).journaled (2 + 1) {} [] (0, 0)
    run.1.2.passes.map (·.outcome.isOk) = [false, true] ∧
      run'.1.2.passes.map (·.outcome.isOk) = [true, true] ∧
      run.1.2.passes.map (fun p => (p.entries, p.report)) =
        run'.1.2.passes.map (fun p => (p.entries, p.report)) ∧
      run.1.1.1 = some (.ok ()) ∧
      (once 6).1.2.passes.map (fun p => (p.chains, p.entries.messages.length)) = [([1, 10], 2)] ∧
      (once 6).1.1.1 = some (.error ()) ∧ (once 6).2.2 = 1 ∧
      once 0 = (((some (.ok ()), {}), [.looked true]), (1, 0)) := by
  intro out write x run run' single once
  have stopped : run.1.2.isStopped = true := by decide +kernel
  have undisturbed := x.run_undisturbed_by_lost_reports (out 6) write (out 6).publish 2 {} 0 0 0
  simp only [show x.interval = some (.ofSeconds 1) from rfl] at undisturbed
  obtain ⟨-, -, same, -, -, -, ends, -⟩ := undisturbed
  obtain ⟨-, -, p, -, -, -, failed, handed, -⟩ :=
    single.run_undisturbed_by_lost_reports (out 6) write write 2 {} 0 0 0
  obtain ⟨outcome, writes⟩ : Except.error () = p.outcome ∧ 1 = (once 6).2.2 := Prod.mk.inj handed
  obtain ⟨-, -, idle⟩ := single.run_undisturbed_by_lost_reports (out 0) write write 2 {} 0 0 0
  refine ⟨by decide +kernel, by decide +kernel, ?_, ?_, ?_, ?_, writes.symm, idle⟩
  -- the runs are evaluated if they are compared under names
  · subst run run'
    exact same
  · subst run
    exact ends.trans (if_pos stopped)
  · decide +kernel
  · exact failed.trans (congrArg some outcome.symm)

end Indexer

end VaultIndex
