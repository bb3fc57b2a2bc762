import Mathlib.Data.Finset.Basic
import VaultIndex.Proofs.Courses

/-!
# Passes of a run

The journal of a run falls into passes, each closed by the report that was handed over. A pass
reports on the first few of the chains to be indexed, on all of them unless it is cancelled, and
only the first one announces them (`Indexer.run_reports_and_announces`). A pass that is cancelled
may therefore hand over a report with fewer chains than the report before, which is lost
(`Indexer.covers_fewer_iff`).
-/

namespace VaultIndex

open Numbered (number)

variable {ε σ : Type}

/-! ### Passes in a journal -/

namespace Journal

/-- What a run saw when it looked whether it was cancelled. -/
def looks (journal : Journal ε) : List Bool :=
  journal.filterMap fun
    | .looked cancelled => some cancelled
    | _ => none

def messages (journal : Journal ε) : List String :=
  journal.filterMap fun
    | .announced message => some message
    | _ => none

end Journal

open Journal

/-- A pass with what is noted from its first look on until its report is handed over. -/
structure PassRecord (ε : Type) where
  entries : Journal ε
  report : IndexReport
  outcome : Except ε Unit

namespace PassRecord

/-- The chains that a report is on. -/
def chains (p : PassRecord ε) : List ChainId := p.report.chains.keys

/-- Whether the run has seen in a pass that it is cancelled. -/
def isCancelled (p : PassRecord ε) : Bool := p.entries.looks.contains true

/-- How many chains a pass has come to. The first look is in front of the pass. -/
def visited (p : PassRecord ε) : Nat := p.entries.looks.count false - 1

end PassRecord

namespace Journal

/-- The passes of a journal, the first of which has begun already. -/
def passesFrom (begun : Journal ε) : Journal ε → List (PassRecord ε)
  | [] => []
  | .published report outcome :: rest => ⟨begun, report, outcome⟩ :: passesFrom [] rest
  | .paused _ :: rest => passesFrom [] rest
  | entry :: rest => passesFrom (begun ++ [entry]) rest

def passes (journal : Journal ε) : List (PassRecord ε) := passesFrom [] journal

end Journal

namespace InitializationTracker

lemma announcement_eq (chain : ChainId) (count total : Nat) :
    announcement chain count total =
      "✅ - yieldscope initialized for chain " ++ toString chain.toNat ++
        " (" ++ toString count ++ "/" ++ toString total ++ ")" :=
  rfl

/-- The announcements of chains, one after the other. -/
def announcements (t : InitializationTracker) (chains : List ChainId) : List String :=
  chains.mapIdx fun k chain => announcement chain (t.initialized + k + 1) t.total

lemma announcements_cons (t : InitializationTracker) (chain : ChainId) (rest : List ChainId) :
    t.announcements (chain :: rest) =
      (t.chainInitialized chain).2 :: (t.chainInitialized chain).1.announcements rest := by
  simp only [announcements, chainInitialized, List.mapIdx_cons, Nat.add_zero]
  congr 2
  funext k chain
  rw [Nat.add_assoc t.initialized 1 k, Nat.add_comm 1 k]

end InitializationTracker

/-! ### What a pass notes -/

namespace Visits

variable {registry : ChainRegistry} {announces : Bool} {tracker : InitializationTracker}
  {chains reported : List ChainId} {entries : Journal ε}

lemma reported_eq (h : Visits registry announces tracker chains entries reported) :
    reported = (chains.take (entries.looks.count false)).filter registry.contains := by
  induction h with
  | done => rfl
  | cancelled => rfl
  | skips unknown _ ih => simp [looks, unknown, ih]
  | reports known _ ih => simp [looks, known, ih]
  | announces known _ ih => simp [looks, known, ih]

lemma cancelled_iff (h : Visits registry announces tracker chains entries reported) :
    true ∈ entries.looks ↔ entries.looks.count false < chains.length := by
  induction h with
  | done => simp [looks]
  | cancelled => simp [looks]
  | skips _ _ ih => simpa [looks] using ih
  | reports _ _ ih => simpa [looks] using ih
  | announces _ _ ih => simpa [looks] using ih

lemma messages_eq_nil (h : Visits registry announces tracker chains entries reported)
    (silent : announces = false) : entries.messages = [] := by
  induction h with
  | done => rfl
  | cancelled => rfl
  | skips _ _ ih => exact ih silent
  | reports _ _ ih => exact ih silent
  | announces => cases silent

lemma messages_eq (h : Visits registry announces tracker chains entries reported)
    (loud : announces = true) :
    entries.messages = tracker.announcements reported := by
  induction h with
  | done => rfl
  | cancelled => rfl
  | skips _ _ ih => exact ih loud
  | reports => cases loud
  | announces _ _ ih =>
    rw [InitializationTracker.announcements_cons, ← ih loud]
    rfl

lemma passesFrom_append (h : Visits registry announces tracker chains entries reported)
    (begun later : Journal ε) :
    passesFrom begun (entries ++ later) = passesFrom (begun ++ entries) later := by
  induction h generalizing begun with
  | done => rw [List.append_nil, List.nil_append]
  | cancelled => rfl
  | skips _ _ ih => simp [passesFrom, ih]
  | reports _ _ ih => simp [passesFrom, ih]
  | announces _ _ ih => simp [passesFrom, ih]

lemma passes_eq {report : IndexReport}
    (h : Visits registry announces tracker chains entries report.chains.keys)
    (outcome : Except ε Unit) (later : Journal ε) :
    passes (.looked false :: (entries ++ .published report outcome :: later)) =
      ⟨.looked false :: entries, report, outcome⟩ :: passes later :=
  h.passesFrom_append [.looked false] (.published report outcome :: later)

example (r : IndexReport) (e : ε) :
    passes [.looked false, .published r (.error e), .paused false, .looked false, .looked true,
      .published r (.ok ()), .paused true] =
    [⟨[.looked false], r, .error e⟩, ⟨[.looked false, .looked true], r, .ok ()⟩] := rfl

end Visits

namespace Indexer

/-- A pass as an indexer makes it. -/
def Makes (x : Indexer) (announces : Bool) (tracker : InitializationTracker) (p : PassRecord ε) :
    Prop :=
  ∃ entries, p.entries = .looked false :: entries ∧
    Visits x.registry announces tracker x.snapshot.chains.keys entries p.chains

namespace Makes

variable {x : Indexer} {announces : Bool} {tracker : InitializationTracker} {p : PassRecord ε}

lemma chains_eq (h : x.Makes announces tracker p) :
    p.chains = (x.snapshot.chains.keys.take p.visited).filter x.registry.contains := by
  obtain ⟨entries, noted, visits⟩ := h
  have visited : p.visited = (looks entries).count false := by
    rw [PassRecord.visited, noted]
    simp [looks]
  rw [visited]
  exact visits.reported_eq

lemma isCancelled_iff (h : x.Makes announces tracker p) :
    p.isCancelled = true ↔ p.visited < x.snapshot.chains.keys.length := by
  obtain ⟨entries, noted, visits⟩ := h
  rw [PassRecord.isCancelled, PassRecord.visited, noted]
  simpa [looks] using visits.cancelled_iff

lemma messages_eq (h : x.Makes true tracker p) :
    p.entries.messages = tracker.announcements p.chains := by
  obtain ⟨entries, noted, visits⟩ := h
  rw [noted]
  exact visits.messages_eq rfl

lemma messages_eq_nil (h : x.Makes false tracker p) : p.entries.messages = [] := by
  obtain ⟨entries, noted, visits⟩ := h
  rw [noted]
  exact visits.messages_eq_nil rfl

end Makes

end Indexer

namespace Course

variable {x : Indexer} {isFirst : Bool} {tracker : InitializationTracker} {journal : Journal ε}
  {result : Option (Except ε Unit)}

lemma first_pass {entries later : Journal ε} {report : IndexReport}
    (visited : Visits x.registry isFirst tracker x.snapshot.chains.keys entries report.chains.keys)
    (outcome : Except ε Unit) (silent : later.messages = [])
    (makes : ∀ q ∈ later.passes, ∃ tracker', x.Makes false tracker' q) :
    let journal : Journal ε := .looked false :: entries ++ .published report outcome :: later
    ∃ p rest, journal.passes = p :: rest ∧ x.Makes isFirst tracker p ∧
      (∀ q ∈ rest, ∃ tracker', x.Makes false tracker' q) ∧
      journal.messages = p.entries.messages := by
  refine ⟨_, _, visited.passes_eq outcome later, ⟨_, rfl, visited⟩, makes, ?_⟩
  simp [messages] at silent ⊢
  exact silent

/-- A run makes no pass, or a first one after which all are silent. -/
lemma passes_cases (h : Course x isFirst tracker journal result) :
    journal.passes = [] ∧ journal.messages = [] ∨
      ∃ p rest, journal.passes = p :: rest ∧ x.Makes isFirst tracker p ∧
        (∀ q ∈ rest, ∃ tracker', x.Makes false tracker' q) ∧
        journal.messages = p.entries.messages := by
  induction h with
  | unfinished => exact .inl ⟨rfl, rfl⟩
  | cancelled => exact .inl ⟨rfl, rfl⟩
  | single once visited => exact .inr (first_pass visited _ rfl (by simp [passes, passesFrom]))
  | stopped repeated visited =>
    exact .inr (first_pass visited _ rfl (by simp [passes, passesFrom]))
  | @goesOn _ _ _ _ _ _ onwards _ repeated visited later ih =>
    -- what follows the first pass is a course of its own, whose first pass is silent too
    obtain ⟨silent, makes⟩ : onwards.messages = [] ∧
        ∀ q ∈ onwards.passes, ∃ tracker', x.Makes false tracker' q := by
      rcases ih with ⟨none, silent⟩ | ⟨p, rest, all, makes, others, same⟩
      · simp [none, silent]
      · rw [all, same]
        exact ⟨makes.messages_eq_nil, List.forall_mem_cons.2 ⟨⟨_, makes⟩, others⟩⟩
    exact .inr (first_pass visited _ silent makes)

lemma exists_makes (h : Course x isFirst tracker journal result) {p : PassRecord ε}
    (hp : p ∈ journal.passes) : ∃ announces tracker', x.Makes announces tracker' p := by
  rcases h.passes_cases with ⟨none, -⟩ | ⟨first, later, all, makes, others, -⟩
  · rw [none] at hp
    cases hp
  · rw [all, List.mem_cons] at hp
    rcases hp with rfl | hp
    · exact ⟨isFirst, tracker, makes⟩
    · exact ⟨false, others p hp⟩

end Course

/-! ### Reports and announcements -/

namespace Indexer

variable (x : Indexer)

/-- The chains to be indexed, in ascending order. -/
def indexedIds : List ChainId := x.snapshot.chains.keys.filter x.registry.contains

lemma indexedChains_eq : x.indexedChains = x.indexedIds.length := List.countP_eq_length_filter

lemma pairwise_indexedIds : x.indexedIds.Pairwise fun a b => number a < number b :=
  (Table.pairwise_keys _).filter _

lemma mem_indexedIds_iff {chain : ChainId} :
    chain ∈ x.indexedIds ↔
      x.snapshot.chains.contains chain = true ∧ x.registry.contains chain = true := by
  rw [indexedIds, List.mem_filter, Table.mem_keys_iff]
  rfl

namespace Makes

variable {x} {announces : Bool} {tracker : InitializationTracker} {p q : PassRecord ε}

lemma isPrefix (h : x.Makes announces tracker p) : p.chains <+: x.indexedIds := by
  rw [h.chains_eq]
  exact (List.take_prefix _ _).filter _

lemma chains_eq_indexedIds (h : x.Makes announces tracker p) (through : p.isCancelled = false) :
    p.chains = x.indexedIds := by
  have all : x.snapshot.chains.keys.length ≤ p.visited := by
    rw [← Nat.not_lt, ← h.isCancelled_iff, through]
    exact Bool.false_ne_true
  rw [h.chains_eq, List.take_of_length_le all]
  rfl

end Makes

/-- In every run, however it is cancelled and whatever becomes of its reports, each pass reports on
the first few of the chains to be indexed, and on all of them unless it is cancelled. Announced are
the chains of the first report, the so many-th of all; a later pass announces nothing. -/
theorem run_reports_and_announces (out : Surroundings (StateM σ) ε) (limit : Nat) (t : Tally)
    (s : σ) :
    let run := x.run out.journaled limit t [] s
    let journal := run.1.2
    x.run out limit t s = (run.1.1, run.2) ∧
    x.indexedIds.Pairwise (fun a b => number a < number b) ∧
    (∀ chain, chain ∈ x.indexedIds ↔
      x.snapshot.chains.contains chain = true ∧ x.registry.contains chain = true) ∧
    (∀ p ∈ journal.passes,
      p.chains <+: x.indexedIds ∧ (p.isCancelled = false → p.chains = x.indexedIds)) ∧
    journal.messages.length ≤ x.indexedIds.length ∧
    match journal.passes with
    | [] => journal.messages = []
    | first :: later =>
      journal.messages = first.chains.mapIdx (fun k chain =>
        "✅ - yieldscope initialized for chain " ++ toString chain.toNat ++
          " (" ++ toString (k + 1) ++ "/" ++ toString x.indexedIds.length ++ ")") ∧
      ∀ p ∈ later, p.entries.messages = [] := by
  intro run journal
  obtain ⟨plain, course⟩ : _ ∧ Course x true _ journal _ := x.run_course out limit t s
  have reports : ∀ p ∈ journal.passes,
      p.chains <+: x.indexedIds ∧ (p.isCancelled = false → p.chains = x.indexedIds) := by
    intro p hp
    obtain ⟨announces, tracker, makes⟩ := course.exists_makes hp
    exact ⟨makes.isPrefix, makes.chains_eq_indexedIds⟩
  refine ⟨plain, x.pairwise_indexedIds, fun _ => x.mem_indexedIds_iff, reports, ?_⟩
  rcases course.passes_cases with ⟨none, silent⟩ | ⟨first, later, all, makes, others, same⟩
  · rw [none, silent]
    exact ⟨Nat.zero_le _, rfl⟩
  · have announced : journal.messages = first.chains.mapIdx fun k chain =>
        "✅ - yieldscope initialized for chain " ++ toString chain.toNat ++
          " (" ++ toString (k + 1) ++ "/" ++ toString x.indexedIds.length ++ ")" := by
      rw [same, makes.messages_eq, x.indexedChains_eq, InitializationTracker.announcements]
      simp only [Nat.zero_add, InitializationTracker.announcement_eq]
    rw [all]
    refine ⟨?_, announced, ?_⟩
    · rw [announced, List.length_mapIdx]
      exact makes.isPrefix.length_le
    · intro p hp
      obtain ⟨tracker, silent⟩ := others p hp
      exact silent.messages_eq_nil

/-- Surroundings in which no source is reached, and a run sees that it is cancelled after so many
looks. -/
def sourceless (looks : Nat) : Surroundings (StateM Nat) Empty where
  source := ⟨fun chain => pure (.error (.unknownChain chain)),
    fun chain _ => pure (.error (.oracleUnavailable chain))⟩
  isCancelled looked := (decide (looks ≤ looked), looked + 1)
  now := pure ⟨0⟩
  notify _ := pure ()
  publish _ := pure (.ok ())
  pause _ := pure false

/-- An indexer with the chains 1 and 10 registered that makes one pass after the other. -/
def ofSnapshot (chains : List ChainId) : Indexer where
  registry := ⟨.ofList <| [1, 10].map fun chain =>
    (chain, { chainId := chain, name := "", rpcUrl := default })⟩
  snapshot := ⟨.ofList (chains.map fun chain => (chain, {}))⟩
  interval := some (.ofSeconds 1)

/-- Chain 5 is not registered; the second pass is cancelled in front of it. -/
theorem run_announces_registered_chains :
    let journal := ((ofSnapshot [1, 5, 10]).run (sourceless 6).journaled 3 {} [] 0).1.2
    journal.passes.map (·.chains) = [[1, 10], [1]] ∧
      journal.messages = ["✅ - yieldscope initialized for chain 1 (1/2)",
        "✅ - yieldscope initialized for chain 10 (2/2)"] := by
  have run := (ofSnapshot [1, 5, 10]).run_reports_and_announces (sourceless 6) 3 {} 0
  exact ⟨rfl, run.2.2.2.2.2.1⟩

/-! ### Reports with fewer chains -/

namespace Makes

variable {x} {announces announces' : Bool} {tracker tracker' : InitializationTracker}
  {p q : PassRecord ε} {chain : ChainId}

lemma not_mem_chains_iff (h : x.Makes announces tracker p) (known : chain ∈ x.indexedIds) :
    chain ∉ p.chains ↔ chain ∈ x.snapshot.chains.keys.drop p.visited := by
  obtain ⟨filed, registered⟩ := List.mem_filter.1 known
  rw [h.chains_eq, List.mem_filter, not_and_or]
  constructor
  · rintro (beyond | unknown)
    · rw [← List.take_append_drop p.visited x.snapshot.chains.keys, List.mem_append] at filed
      exact filed.resolve_left beyond
    · exact absurd registered unknown
  · intro beyond
    left
    intro within
    exact List.disjoint_take_drop (Table.nodup_keys _) (Nat.le_refl _) within beyond

lemma isCancelled_of_mem_drop (h : x.Makes announces tracker p)
    (beyond : chain ∈ x.snapshot.chains.keys.drop p.visited) : p.isCancelled = true := by
  have left := List.length_pos_of_mem beyond
  rw [List.length_drop] at left
  rw [h.isCancelled_iff]
  omega

/-- Of two passes the one reports on fewer chains that is cancelled in front of a chain of the
other. -/
lemma ssubset_chains_iff (hp : x.Makes announces tracker p) (hq : x.Makes announces' tracker' q) :
    q.chains.toFinset ⊂ p.chains.toFinset ↔
      q.isCancelled = true ∧ ∃ chain ∈ p.chains, chain ∈ x.snapshot.chains.keys.drop q.visited := by
  constructor
  · intro fewer
    obtain ⟨chain, inp, notq⟩ := Finset.exists_of_ssubset fewer
    rw [List.mem_toFinset] at inp notq
    have beyond := (hq.not_mem_chains_iff (hp.isPrefix.subset inp)).1 notq
    exact ⟨hq.isCancelled_of_mem_drop beyond, chain, inp, beyond⟩
  · rintro ⟨-, chain, inp, beyond⟩
    have notq := (hq.not_mem_chains_iff (hp.isPrefix.subset inp)).2 beyond
    -- both are beginnings of the same list, so that one goes on where the other ends
    have fewer : q.chains <+: p.chains := by
      rcases List.prefix_or_prefix_of_prefix hp.isPrefix hq.isPrefix with h | h
      · exact absurd (h.subset inp) notq
      · exact h
    rw [Finset.ssubset_iff_of_subset fun i hi => ?_]
    · exact ⟨chain, by simpa using inp, by simpa using notq⟩
    · rw [List.mem_toFinset] at hi ⊢
      exact fewer.subset hi

end Makes

/-- In every run, a report is followed by one with fewer chains exactly if the later pass is
cancelled in front of a chain that the earlier one has reported on. -/
theorem covers_fewer_iff (out : Surroundings (StateM σ) ε) (limit : Nat) (t : Tally) (s : σ) :
    let run := x.run out.journaled limit t [] s
    x.run out limit t s = (run.1.1, run.2) ∧
    run.1.2.passes.Pairwise fun earlier later =>
      (later.chains.toFinset ⊂ earlier.chains.toFinset ↔
        later.isCancelled = true ∧
          ∃ chain ∈ earlier.chains, chain ∈ x.snapshot.chains.keys.drop later.visited) := by
  intro run
  obtain ⟨plain, course⟩ : _ ∧ Course x true _ run.1.2 _ := x.run_course out limit t s
  refine ⟨plain, List.pairwise_of_forall_mem_list fun earlier he later hl => ?_⟩
  obtain ⟨announces, tracker, makes⟩ := course.exists_makes he
  obtain ⟨announces', tracker', makes'⟩ := course.exists_makes hl
  exact makes.ssubset_chains_iff makes'

/-- The second pass of a run is cancelled between its two chains; its report takes the place of one
on both. -/
theorem cancelled_pass_covers_fewer :
    let journal := ((ofSnapshot [1, 10]).run (sourceless 5).journaled 3 {} [] 0).1.2
    ∃ earlier later, journal.passes = [earlier, later] ∧
      earlier.outcome = .ok () ∧ later.outcome = .ok () ∧
      earlier.chains = [1, 10] ∧ later.chains = [1] ∧
      later.chains.toFinset ⊂ earlier.chains.toFinset :=
  ⟨_, _, rfl, rfl, rfl, rfl, rfl, by decide⟩

end Indexer

end VaultIndex
