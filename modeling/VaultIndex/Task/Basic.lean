/-!
# Runs of tasks

Tasks that stand in a list share a state and move one at a time, in any order. A run is any number
of such moves.
-/

namespace VaultIndex

/-- A state after any number of moves, where `move? s i` is what a move of the task at place `i`
makes of a state `s`, if this task can move. -/
inductive TaskRun {α : Type} (move? : α → Nat → Option α) : α → α → Prop where
  | refl (s : α) : TaskRun move? s s
  | step {s t u : α} (i : Nat) : TaskRun move? s t → move? t i = some u → TaskRun move? s u

end VaultIndex
