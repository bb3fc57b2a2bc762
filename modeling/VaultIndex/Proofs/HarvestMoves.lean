import VaultIndex.Harvest.Tasks
import VaultIndex.Proofs.TaskMoves

/-!
# The moves of a harvest

A task opens its stream, takes in one item after the other, and comes to its end or breaks down
(`Pool.Move`). A pool that is not over always has a task that can move, and every move leaves less
work, so that every harvest comes to an end whatever the order in which its tasks move
(`Pool.exists_reaches_over`).
-/

namespace VaultIndex.Harvest

variable {chain : ChainId} {stream : EventFilter → List StreamItem} {bound : Nat}

/-- The moves that a task has before it. -/
def Task.movesLeft (stream : EventFilter → List StreamItem) (t : Task) : Nat :=
  match t.progress with
  | .waiting => (stream t.filter).length + 2
  | .reading rest _ => rest.length + 1
  | .finished | .aborted => 0

namespace Pool

/-- What one move of the task at a place can do to a pool. -/
inductive Move (chain : ChainId) (stream : EventFilter → List StreamItem) (bound : Nat) (p : Pool)
    (i : Nat) : Pool → Prop where
  | opens {filter : EventFilter} (ht : p.tasks[i]? = some ⟨filter, .waiting⟩)
      (hb : p.openStreams < bound) :
      Move chain stream bound p i
        { p with tasks := p.tasks.set i ⟨filter, .reading (stream filter) 0⟩
                 opened := p.opened ++ [filter] }
  | takes {filter : EventFilter} {item : StreamItem} {rest : List StreamItem} {added : Nat}
      (ht : p.tasks[i]? = some ⟨filter, .reading (item :: rest) added⟩) (hi : item ≠ .breakdown) :
      Move chain stream bound p i
        { p with
          tasks := p.tasks.set i ⟨filter, .reading rest
            (Intake.take chain filter ⟨p.gathered, p.tally, added⟩ item).added⟩
          gathered := (Intake.take chain filter ⟨p.gathered, p.tally, added⟩ item).gathered
          tally := (Intake.take chain filter ⟨p.gathered, p.tally, added⟩ item).tally }
  | ends {filter : EventFilter} {added : Nat}
      (ht : p.tasks[i]? = some ⟨filter, .reading [] added⟩) :
      Move chain stream bound p i
        { p with tasks := p.tasks.set i ⟨filter, .finished⟩
                 tally := (Intake.finish chain filter ⟨p.gathered, p.tally, added⟩).tally }
  | breaks {filter : EventFilter} {rest : List StreamItem} {added : Nat}
      (ht : p.tasks[i]? = some ⟨filter, .reading (.breakdown :: rest) added⟩) :
      Move chain stream bound p i { p with tasks := p.tasks.set i ⟨filter, .aborted⟩ }

theorem Move.of_move? {p q : Pool} {i : Nat} (h : p.move? chain stream bound i = some q) :
    Move chain stream bound p i q := by
  unfold move? at h
  cases ht : p.tasks[i]? with
  | none => simp [ht] at h
  | some task =>
    obtain ⟨filter, progress⟩ := task
    simp only [ht, Option.bind_eq_bind, Option.bind_some] at h
    cases progress with
    | waiting =>
      simp only [Option.ite_none_right_eq_some, Option.some.injEq] at h
      obtain ⟨hb, rfl⟩ := h
      exact .opens ht hb
    | reading rest added =>
      cases rest with
      | nil =>
        cases h
        exact .ends ht
      | cons item rest =>
        cases item with
        | breakdown =>
          cases h
          exact .breaks ht
        | event e =>
          cases h
          exact .takes ht (by simp)
        | failure cause =>
          cases h
          exact .takes ht (by simp)
    | finished => cases h
    | aborted => cases h

theorem Move.move?_eq {p q : Pool} {i : Nat} (h : Move chain stream bound p i q) :
    p.move? chain stream bound i = some q := by
  cases h with
  | opens ht hb => simp [move?, ht, hb]
  | @takes filter item rest added ht hi =>
    cases item with
    | event e => simp [move?, ht]
    | failure cause => simp [move?, ht]
    | breakdown => exact absurd rfl hi
  | ends ht => simp [move?, ht]
  | breaks ht => simp [move?, ht]

/-! ### Every harvest comes to an end -/

/-- The moves that all tasks have before them. -/
def movesLeft (stream : EventFilter → List StreamItem) (p : Pool) : Nat :=
  (p.tasks.map (·.movesLeft stream)).sum

/-- Every move leaves fewer moves. -/
theorem Move.movesLeft_lt {p q : Pool} {i : Nat} (h : Move chain stream bound p i q) :
    q.movesLeft stream < p.movesLeft stream := by
  cases h with
  | opens ht hb => exact sum_map_set_lt ht (by simp [Task.movesLeft])
  | takes ht hi => exact sum_map_set_lt ht (by simp [Task.movesLeft])
  | ends ht => exact sum_map_set_lt ht (by simp [Task.movesLeft])
  | breaks ht => exact sum_map_set_lt ht (by simp [Task.movesLeft])

lemma exists_move_of_reading {p : Pool} {i : Nat} {filter : EventFilter} {rest : List StreamItem}
    {added : Nat} (ht : p.tasks[i]? = some ⟨filter, .reading rest added⟩) :
    ∃ q, Move chain stream bound p i q := by
  cases rest with
  | nil => exact ⟨_, .ends ht⟩
  | cons item rest =>
    by_cases hi : item = .breakdown
    · subst hi
      exact ⟨_, .breaks ht⟩
    · exact ⟨_, .takes ht hi⟩

/-- In a pool that is not over some task can move: one that reads its stream or, where none does,
one that waits, as all permits are free then. -/
theorem exists_move {p : Pool} (hb : 0 < bound) (ho : p.isOver = false) :
    ∃ i q, Move chain stream bound p i q := by
  obtain ⟨i, ⟨filter, progress⟩, ht, able⟩ := exists_ready (·.progress.isOpen) hb ho
  cases progress with
  | waiting => exact ⟨i, _, .opens ht (able.resolve_left Bool.false_ne_true).2⟩
  | reading rest added => exact ⟨i, exists_move_of_reading ht⟩
  | finished | aborted => simp [Progress.isOpen, Progress.isOver] at able

/-- Every pool can go on until it is over. -/
theorem exists_reaches_over (chain : ChainId) (stream : EventFilter → List StreamItem)
    (hb : 0 < bound) (p : Pool) : ∃ q, Reaches chain stream bound p q ∧ q.isOver = true := by
  refine TaskRun.exists_over (movesLeft stream) (fun p unfinished => ?_) p
  obtain ⟨i, q, move⟩ : ∃ i q, Move chain stream bound p i q := exists_move hb unfinished
  exact ⟨i, q, move.move?_eq, move.movesLeft_lt⟩

end Pool

lemma permits_pos (maxConcurrency : Nat) : 0 < permits maxConcurrency := by
  unfold permits
  omega

end VaultIndex.Harvest
