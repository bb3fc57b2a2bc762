import VaultIndex.Apr.Tasks
import VaultIndex.Proofs.Dialogues
import VaultIndex.Proofs.TaskMoves

/-!
# The moves of a calculation

A task puts its questions one after the other and then files its forward APY (`Pool.Move`). As with
harvests, a pool that is not over always has a task that can move, and every move leaves less to do
(`Pool.exists_reaches_over`).
-/

namespace VaultIndex.ForwardApy

variable {registry : ChainRegistry} {listed : Vault → List Strategy}
  {answer : (q : OracleQuestion) → q.Answer} {bound : Nat}

/-- The moves that a task has before it. -/
def Task.movesLeft (registry : ChainRegistry) (listed : Vault → List Strategy)
    (answer : (q : OracleQuestion) → q.Answer) (t : Task) : Nat :=
  match t.progress with
  | .waiting => (Pool.dialogue registry listed t.vault).questions answer + 2
  | .asking rest => rest.questions answer + 1
  | .finished => 0

namespace Pool

/-- What one move of the task at a place can do to a pool. -/
inductive Move (registry : ChainRegistry) (listed : Vault → List Strategy)
    (answer : (q : OracleQuestion) → q.Answer) (bound : Nat) (p : Pool) (i : Nat) :
    Pool → Prop where
  | begins {v : Vault} (ht : p.tasks[i]? = some ⟨v, .waiting⟩) (hb : p.activeTasks < bound) :
      Move registry listed answer bound p i
        { p with tasks := p.tasks.set i ⟨v, .asking (dialogue registry listed v)⟩ }
  | asks {v : Vault} {question : OracleQuestion}
      {next : question.Answer → Dialogue (ForwardApy × Tally)}
      (ht : p.tasks[i]? = some ⟨v, .asking (.ask question next)⟩) :
      Move registry listed answer bound p i
        { p with tasks := p.tasks.set i ⟨v, .asking (next (answer question))⟩ }
  | files {v : Vault} {apy : ForwardApy} {counted : Tally}
      (ht : p.tasks[i]? = some ⟨v, .asking (.done (apy, counted))⟩) :
      Move registry listed answer bound p i
        { tasks := p.tasks.set i ⟨v, .finished⟩
          apys := p.apys.insert v.address apy
          tally := p.tally.append counted }

theorem Move.of_move? {p q : Pool} {i : Nat} (h : p.move? registry listed answer bound i = some q) :
    Move registry listed answer bound p i q := by
  unfold move? at h
  cases ht : p.tasks[i]? with
  | none => simp [ht] at h
  | some task =>
    obtain ⟨v, progress⟩ := task
    simp only [ht, Option.bind_eq_bind, Option.bind_some] at h
    cases progress with
    | waiting =>
      simp only [Option.ite_none_right_eq_some, Option.some.injEq] at h
      obtain ⟨hb, rfl⟩ := h
      exact .begins ht hb
    | asking rest =>
      cases rest with
      | done result =>
        cases h
        exact .files ht
      | ask question next =>
        cases h
        exact .asks ht
    | finished => cases h

theorem Move.move?_eq {p q : Pool} {i : Nat} (h : Move registry listed answer bound p i q) :
    p.move? registry listed answer bound i = some q := by
  cases h with
  | begins ht hb => simp [move?, ht, hb]
  | asks ht => simp [move?, ht]
  | files ht => simp [move?, ht]

/-! ### Every calculation comes to an end -/

/-- The moves that all tasks have before them. -/
def movesLeft (registry : ChainRegistry) (listed : Vault → List Strategy)
    (answer : (q : OracleQuestion) → q.Answer) (p : Pool) : Nat :=
  (p.tasks.map (·.movesLeft registry listed answer)).sum

/-- Every move leaves fewer moves. -/
theorem Move.movesLeft_lt {p q : Pool} {i : Nat} (h : Move registry listed answer bound p i q) :
    q.movesLeft registry listed answer < p.movesLeft registry listed answer := by
  cases h with
  | begins ht hb => exact sum_map_set_lt ht (by simp [Task.movesLeft])
  | asks ht => exact sum_map_set_lt ht (by simp [Task.movesLeft, Dialogue.questions])
  | files ht => exact sum_map_set_lt ht (by simp [Task.movesLeft])

lemma exists_move_of_asking {p : Pool} {i : Nat} {v : Vault}
    {rest : Dialogue (ForwardApy × Tally)} (ht : p.tasks[i]? = some ⟨v, .asking rest⟩) :
    ∃ q, Move registry listed answer bound p i q := by
  cases rest with
  | done result => exact ⟨_, .files ht⟩
  | ask question next => exact ⟨_, .asks ht⟩

/-- In a pool that is not over some task can move: one that is under way or, where none is, one that
waits. -/
theorem exists_move {p : Pool} (hb : 0 < bound) (ho : p.isOver = false) :
    ∃ i q, Move registry listed answer bound p i q := by
  obtain ⟨i, ⟨v, progress⟩, ht, able⟩ := exists_ready (·.progress.isActive) hb ho
  cases progress with
  | waiting => exact ⟨i, _, .begins ht (able.resolve_left Bool.false_ne_true).2⟩
  | asking rest => exact ⟨i, exists_move_of_asking ht⟩
  | finished => simp [Progress.isActive, Progress.isOver] at able

/-- Every pool can go on until it is over. -/
theorem exists_reaches_over (registry : ChainRegistry) (listed : Vault → List Strategy)
    (answer : (q : OracleQuestion) → q.Answer) (hb : 0 < bound) (p : Pool) :
    ∃ q, Reaches registry listed answer bound p q ∧ q.isOver = true := by
  refine TaskRun.exists_over (movesLeft registry listed answer) (fun p unfinished => ?_) p
  obtain ⟨i, q, move⟩ : ∃ i q, Move registry listed answer bound p i q := exists_move hb unfinished
  exact ⟨i, q, move.move?_eq, move.movesLeft_lt⟩

end Pool

lemma slots_pos (maxConcurrency : Nat) : 0 < slots maxConcurrency := by
  unfold slots
  omega

end VaultIndex.ForwardApy
