import VaultIndex.Proofs.RunJournals
import VaultIndex.Proofs.Tables

/-!
# Courses of runs

A pass visits chains until it has been through all of them or is cancelled; a run makes passes until
it is cancelled, unless a single pass is asked for. The journal of a run tells which way it went
(`Indexer.run_course`).
-/

namespace VaultIndex

open Numbered (number)

variable {ε σ : Type}

/-- The ways to visit chains: what is noted on them, and the chains that are reported on. -/
inductive Visits (registry : ChainRegistry) :
    Bool → InitializationTracker → List ChainId → Journal ε → List ChainId → Prop
  | done {announces tracker} : Visits registry announces tracker [] [] []
  | cancelled {announces tracker chain rest} :
      Visits registry announces tracker (chain :: rest) [.looked true] []
  | skips {announces tracker chain rest entries reported}
      (unknown : registry.contains chain = false)
      (later : Visits registry announces tracker rest entries reported) :
      Visits registry announces tracker (chain :: rest) (.looked false :: entries) reported
  | reports {tracker chain rest entries reported} (known : registry.contains chain = true)
      (later : Visits registry false tracker rest entries reported) :
      Visits registry false tracker (chain :: rest) (.looked false :: entries) (chain :: reported)
  | announces {tracker chain rest entries reported} (known : registry.contains chain = true)
      (later : Visits registry true (tracker.chainInitialized chain).1 rest entries reported) :
      Visits registry true tracker (chain :: rest)
        (.looked false :: .announced (tracker.chainInitialized chain).2 :: entries)
        (chain :: reported)

/-- The ways of a run: what is noted, and what the run comes to if it has ended. -/
inductive Course (x : Indexer) :
    Bool → InitializationTracker → Journal ε → Option (Except ε Unit) → Prop
  | unfinished {isFirst tracker} : Course x isFirst tracker [] none
  | cancelled {isFirst tracker} : Course x isFirst tracker [.looked true] (some (.ok ()))
  | single {isFirst tracker entries report outcome} (once : x.interval = none)
      (visited :
        Visits x.registry isFirst tracker x.snapshot.chains.keys entries report.chains.keys) :
      Course x isFirst tracker (.looked false :: entries ++ [.published report outcome])
        (some outcome)
  | stopped {isFirst tracker entries report outcome} (repeated : x.interval.isSome = true)
      (visited :
        Visits x.registry isFirst tracker x.snapshot.chains.keys entries report.chains.keys) :
      Course x isFirst tracker
        (.looked false :: entries ++ [.published report outcome, .paused true]) (some (.ok ()))
  | goesOn {isFirst tracker tracker' entries report outcome journal result}
      (repeated : x.interval.isSome = true)
      (visited :
        Visits x.registry isFirst tracker x.snapshot.chains.keys entries report.chains.keys)
      (later : Course x false tracker' journal result) :
      Course x isFirst tracker
        (.looked false :: entries ++ .published report outcome :: .paused false :: journal) result

/-- Whether a report was handed over. -/
def Occurrence.isPublished : Occurrence ε → Bool
  | .published .. => true
  | .looked _ | .announced _ | .paused _ => false

/-- No report is handed over while chains are visited. -/
lemma Visits.countP_isPublished {registry : ChainRegistry} {announces : Bool}
    {tracker : InitializationTracker} {chains reported : List ChainId} {entries : Journal ε}
    (h : Visits registry announces tracker chains entries reported) :
    entries.countP (·.isPublished) = 0 := by
  induction h with
  | done | cancelled => rfl
  | skips _ _ ih | reports _ _ ih | announces _ _ ih => exact ih

namespace Indexer

variable (x : Indexer) (out : Surroundings (StateM σ) ε)

/-- Indexing a chain leaves no mark in the journal. -/
lemma comes_indexChain (chain : ChainId) (c : ChainSnapshot) (t : Tally) (s : σ) :
    ∃ report t' s', Comes (x.indexChain out.journaled.source chain c)
      (x.indexChain out.source chain c) t s report [] t' s' := by
  rw [Surroundings.journaled, x.indexChain_lifted]
  exact Comes.silently _ t s

/-- Chains are visited in one of the ways of `Visits`, with a journal as without. -/
theorem comes_visit (announces : Bool) (l : List (ChainId × ChainSnapshot)) (pass : Pass)
    (t : Tally) (s : σ)
    (ascending : (pass.chains.keys ++ l.map (·.1)).Pairwise fun a b => number a < number b) :
    ∃ pass' entries t' s' reported,
      Comes (x.visit out.journaled announces l pass) (x.visit out announces l pass) t s pass'
        entries t' s' ∧
      Visits x.registry announces pass.tracker (l.map (·.1)) entries reported ∧
      pass'.chains.keys = pass.chains.keys ++ reported := by
  induction l generalizing pass t s with
  | nil => exact ⟨pass, [], t, s, [], .done pass, .done, (List.append_nil _).symm⟩
  | cons e rest ih =>
    obtain ⟨chain, c⟩ := e
    simp only [visit]
    obtain ⟨cancelled, s₁, look⟩ := Comes.noted out.isCancelled Occurrence.looked t s
    cases cancelled with
    | true => exact ⟨pass, _, t, s₁, [], look.bind (.done pass), .cancelled, by simp⟩
    | false =>
      cases known : x.registry.contains chain with
      | false =>
        have others := ascending.sublist ((List.sublist_cons_self chain _).append_left _)
        obtain ⟨pass', entries, t', s', reported, comes, visits, keys⟩ := ih pass t s₁ others
        exact ⟨pass', _, t', s', reported, look.bind comes, .skips known visits, keys⟩
      | true =>
        obtain ⟨report, t₂, s₂, indexed⟩ := x.comes_indexChain out chain c t s₁
        -- chains come in ascending order, so that each report is filed behind the others
        have filed : (pass.chains.insert chain report).keys = pass.chains.keys ++ [chain] := by
          refine Table.keys_insert_of_lt report fun i hi => ?_
          exact (List.pairwise_append.1 ascending).2.2 i hi chain List.mem_cons_self
        have onwards (tracker : InitializationTracker) :=
          ih { chains := pass.chains.insert chain report, tracker }
        simp only [filed, List.append_assoc, List.singleton_append] at onwards
        cases announces with
        | false =>
          obtain ⟨pass', entries, t', s', reported, comes, visits, keys⟩ :=
            onwards pass.tracker t₂ s₂ ascending
          exact ⟨pass', _, t', s', chain :: reported, look.bind (indexed.bind comes),
            .reports known visits, keys⟩
        | true =>
          let message := (pass.tracker.chainInitialized chain).2
          obtain ⟨_, s₃, told⟩ :=
            Comes.noted (out.notify message) (fun _ => Occurrence.announced message) t₂ s₂
          obtain ⟨pass', entries, t', s', reported, comes, visits, keys⟩ :=
            onwards (pass.tracker.chainInitialized chain).1 t₂ s₃ ascending
          exact ⟨pass', _, t', s', chain :: reported, look.bind (indexed.bind (told.bind comes)),
            .announces known visits, keys⟩

theorem comes_runOnce (announces : Bool) (tracker : InitializationTracker) (t : Tally) (s : σ) :
    ∃ report tracker' entries t' s',
      Comes (x.runOnce out.journaled announces tracker) (x.runOnce out announces tracker) t s
        (report, tracker') entries t' s' ∧
      Visits x.registry announces tracker x.snapshot.chains.keys entries report.chains.keys := by
  obtain ⟨pass, entries, t₁, s₁, reported, comes, visits, keys⟩ :=
    x.comes_visit out announces x.snapshot.chains.entries { tracker } t s (Table.pairwise_keys _)
  obtain ⟨time, s₂, stamped⟩ := Comes.outside out.now t₁ s₁
  refine ⟨⟨time, pass.chains⟩, pass.tracker, entries ++ ([] ++ []), t₁, s₂,
    comes.bind (stamped.bind (.done _)), ?_⟩
  rw [List.append_nil, List.append_nil, keys]
  exact visits

/-- A run follows a course, and it goes on for as many passes as it may unless it ends before. -/
theorem comes_runPasses (limit : Nat) (isFirst : Bool) (tracker : InitializationTracker)
    (t : Tally) (s : σ) :
    ∃ result journal t' s',
      Comes (x.runPasses out.journaled limit isFirst tracker)
        (x.runPasses out limit isFirst tracker) t s result journal t' s' ∧
      Course x isFirst tracker journal result ∧
      (result = none → journal.countP (·.isPublished) = limit) := by
  induction limit generalizing isFirst tracker t s with
  | zero => exact ⟨none, [], t, s, .done none, .unfinished, fun _ => rfl⟩
  | succ limit ih =>
    simp only [runPasses]
    obtain ⟨cancelled, s₁, look⟩ := Comes.noted out.isCancelled Occurrence.looked t s
    cases cancelled with
    | true => exact ⟨_, _, t, s₁, look.bind (.done _), .cancelled, nofun⟩
    | false =>
      obtain ⟨report, tracker', entries, t₂, s₂, once, visited⟩ :=
        x.comes_runOnce out isFirst tracker t s₁
      obtain ⟨outcome, s₃, handed⟩ := Comes.noted (out.publish report) (.published report) t₂ s₂
      cases interval : x.interval with
      | none =>
        exact ⟨some outcome, _, t₂, s₃, look.bind (once.bind (handed.bind (.done _))),
          .single interval visited, nofun⟩
      | some time =>
        have repeated : x.interval.isSome = true := by rw [interval]; rfl
        obtain ⟨stopped, s₄, waited⟩ := Comes.noted (out.pause time) Occurrence.paused t₂ s₃
        cases stopped with
        | true =>
          exact ⟨_, _, t₂, s₄, look.bind (once.bind (handed.bind (waited.bind (.done _)))),
            .stopped repeated visited, nofun⟩
        | false =>
          obtain ⟨result, journal, t', s', comes, later, passes⟩ := ih false tracker' t₂ s₄
          refine ⟨result, _, t', s', look.bind (once.bind (handed.bind (waited.bind comes))),
            .goesOn repeated visited later, fun unfinished => ?_⟩
          rw [List.countP_append, List.countP_append, List.countP_append, List.countP_append,
            visited.countP_isPublished, passes unfinished]
          show 0 + (0 + (1 + (0 + limit))) = limit + 1
          omega

/-- A run with a journal comes to the same as without, and its journal follows a course. -/
theorem run_course (limit : Nat) (t : Tally) (s : σ) :
    let run := x.run out.journaled limit t [] s
    x.run out limit t s = (run.1.1, run.2) ∧
      Course x true { total := x.indexedChains } run.1.2 run.1.1.1 := by
  obtain ⟨result, journal, t', s', comes, course, -⟩ :=
    x.comes_runPasses out limit true { total := x.indexedChains } t s
  have ran : x.run out.journaled limit t [] s = (((result, t'), journal), s') :=
    comes.journaled []
  rw [ran]
  exact ⟨comes.plain, course⟩

end Indexer

end VaultIndex
