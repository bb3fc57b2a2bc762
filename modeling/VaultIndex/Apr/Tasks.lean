import VaultIndex.Apr.Calculator
import VaultIndex.Oracle.Dialogue
import VaultIndex.Task.Basic

/-!
# Forward APYs as tasks

Every vault of a calculation is a task, and a bounded number of tasks ask their oracles at the same
time. A task is begun, puts its questions one by one among those of the other tasks, and files its
forward APY, with what it has counted meanwhile, when it has the last answer.
-/

namespace VaultIndex.ForwardApy

/-- The number of tasks that may be under way at the same time. -/
def slots (maxConcurrency : Nat) : Nat := max maxConcurrency 1

/-- Where a task stands. -/
inductive Progress where
  | waiting
  /-- What is still to be asked, and what it comes to. -/
  | asking (rest : Dialogue (ForwardApy × Tally))
  | finished

/-- Whether a task has come to its end. -/
def Progress.isOver : Progress → Bool
  | finished => true
  | waiting | asking _ => false

/-- Whether a task has been begun and is not over. -/
def Progress.isActive : Progress → Bool
  | asking _ => true
  | waiting | finished => false

structure Task where
  vault : Vault
  progress : Progress := .waiting

/-- All tasks of a calculation, and what they share. -/
structure Pool where
  tasks : List Task
  apys : Table Address ForwardApy := ∅
  tally : Tally := {}

namespace Pool

/-- The pool of a calculation before any task has moved. -/
def start (vaults : List Vault) (tally : Tally) : Pool :=
  { tasks := vaults.map fun vault => { vault }, tally }

/-- How many tasks are under way. -/
def activeTasks (p : Pool) : Nat := p.tasks.countP (·.progress.isActive)

/-- Whether every task has come to its end. -/
def isOver (p : Pool) : Bool := p.tasks.all (·.progress.isOver)

/-- The questions about a vault with the strategies that are listed for it. -/
def dialogue (registry : ChainRegistry) (listed : Vault → List Strategy) (v : Vault) :
    Dialogue (ForwardApy × Tally) :=
  forwardApy registry Dialogue.chains v (listed v) {}

/-- What a pool is after one move of the task at a place, with `answer` as what oracles answer. A
task can move unless it is over or has to wait for others. -/
def move? (registry : ChainRegistry) (listed : Vault → List Strategy)
    (answer : (q : OracleQuestion) → q.Answer) (bound : Nat) (p : Pool) (i : Nat) :
    Option Pool := do
  let task ← p.tasks[i]?
  let standing (progress : Progress) : List Task := p.tasks.set i { task with progress }
  match task.progress with
  | .waiting =>
    if p.activeTasks < bound then
      some { p with tasks := standing (.asking (dialogue registry listed task.vault)) }
    else none
  | .asking (.ask question next) =>
    some { p with tasks := standing (.asking (next (answer question))) }
  | .asking (.done (apy, counted)) =>
    some { tasks := standing .finished
           apys := p.apys.insert task.vault.address apy
           tally := p.tally.append counted }
  | .finished => none

/-- A pool after any number of moves. -/
abbrev Reaches (registry : ChainRegistry) (listed : Vault → List Strategy)
    (answer : (q : OracleQuestion) → q.Answer) (bound : Nat) : Pool → Pool → Prop :=
  TaskRun (move? registry listed answer bound)

end Pool

/-- What a calculation may come to, with what has been counted by then: vaults may be enumerated and
their tasks may move in any order. -/
inductive Outcome (registry : ChainRegistry) (source : ChainSource Id)
    (listed : Vault → List Strategy) (maxConcurrency : Nat) (vaults : Table Address Vault)
    (before : Tally) : Table Address ForwardApy → Tally → Prop where
  | computed {order : List Vault} {p : Pool} (ho : order.Perm vaults.values)
      (run : Pool.Reaches registry listed source.answers (slots maxConcurrency)
        (.start (order.filter Vault.isV3) before) p)
      (ended : p.isOver = true) :
      Outcome registry source listed maxConcurrency vaults before p.apys p.tally

end VaultIndex.ForwardApy
