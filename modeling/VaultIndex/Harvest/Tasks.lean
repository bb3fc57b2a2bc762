import VaultIndex.Harvest.Basic
import VaultIndex.Task.Basic

/-!
# Harvests as tasks

Every vault of a harvest is a task, and a bounded number of tasks read their streams at the same
time. A task waits for a permit, opens its stream, takes its items in one by one among those of the
other tasks, and hands its permit back when the stream ends or breaks down.
-/

namespace VaultIndex.Harvest

/-- The most permits that there can be. -/
def maxPermits : Nat := 2305843009213693951

/-- The number of streams that may be open at the same time. -/
def permits (maxConcurrency : Nat) : Nat := max 1 (min maxConcurrency maxPermits)

/-- Where a task stands. -/
inductive Progress where
  | waiting
  /-- The stream is open: what is still to come of it, and how many records it has added. -/
  | reading (rest : List StreamItem) (added : Nat)
  | finished
  /-- The stream has broken down. -/
  | aborted
deriving DecidableEq, Inhabited

/-- Whether a task has come to its end. -/
def Progress.isOver : Progress → Bool
  | finished | aborted => true
  | waiting | reading .. => false

/-- Whether a task's stream is open. -/
def Progress.isOpen : Progress → Bool
  | reading .. => true
  | waiting | finished | aborted => false

structure Task where
  filter : EventFilter
  progress : Progress := .waiting
deriving DecidableEq, Inhabited

/-- All tasks of a harvest, and what they share. -/
structure Pool where
  tasks : List Task
  gathered : Gathered := ∅
  tally : Tally := {}
  /-- The filters for which streams were opened, in order. -/
  opened : List EventFilter := []

namespace Pool

/-- The pool of a harvest before any task has moved. -/
def start (filters : List EventFilter) (tally : Tally) : Pool :=
  { tasks := filters.map fun filter => { filter }, tally }

/-- How many streams are open. -/
def openStreams (p : Pool) : Nat := p.tasks.countP (·.progress.isOpen)

/-- Whether every task has come to its end. -/
def isOver (p : Pool) : Bool := p.tasks.all (·.progress.isOver)

/-- What a pool is after one move of the task at a place, with `stream` as what a source yields for
a filter. A task can move unless it is over or has to wait for a permit. -/
def move? (chain : ChainId) (stream : EventFilter → List StreamItem) (bound : Nat) (p : Pool)
    (i : Nat) : Option Pool := do
  let task ← p.tasks[i]?
  let standing (progress : Progress) : List Task := p.tasks.set i { task with progress }
  match task.progress with
  | .waiting =>
    if p.openStreams < bound then
      some { p with tasks := standing (.reading (stream task.filter) 0)
                    opened := p.opened ++ [task.filter] }
    else none
  | .reading [] added =>
    let x := Intake.finish chain task.filter ⟨p.gathered, p.tally, added⟩
    some { p with tasks := standing .finished, tally := x.tally }
  | .reading (.breakdown :: _) _ => some { p with tasks := standing .aborted }
  | .reading (item :: rest) added =>
    let x := Intake.take chain task.filter ⟨p.gathered, p.tally, added⟩ item
    some { p with tasks := standing (.reading rest x.added), gathered := x.gathered
                  tally := x.tally }
  | .finished | .aborted => none

/-- A pool after any number of moves. -/
abbrev Reaches (chain : ChainId) (stream : EventFilter → List StreamItem) (bound : Nat) :
    Pool → Pool → Prop :=
  TaskRun (move? chain stream bound)

end Pool

/-- What a harvest may come to, with what has been counted by then: vaults may be enumerated, their
tasks may move and the gathered keys may be filed in any order. -/
inductive Outcome (source : ChainSource Id) (chain : ChainId) (kind : EventKind) (range : Range)
    (maxConcurrency : Nat) (vaults : Table Address Vault) (before : Tally) :
    EventHistory → Tally → Prop where
  | refused {cause : ChainError} (hs : source.eventSource chain = pure (.error cause)) :
      Outcome source chain kind range maxConcurrency vaults before .empty before
  | harvested {events : EventSource Id} {order : List (Address × Vault)} {p : Pool}
      {entries : List (EventKey × List EventRecord)}
      (hs : source.eventSource chain = pure (.ok events)) (ho : order.Perm vaults.entries)
      (run : Pool.Reaches chain events (permits maxConcurrency)
        (.start (filters chain kind range order) before) p)
      (ended : p.isOver = true) (he : entries.Perm p.gathered.entries) :
      Outcome source chain kind range maxConcurrency vaults before (Gathered.filed entries) p.tally

end VaultIndex.Harvest
