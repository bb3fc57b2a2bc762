import Mathlib.Data.List.Basic
import VaultIndex.Metrics.Tally

/-!
# Totals of counters

An addition raises the total of its own counter and leaves all others as they are.
-/

namespace VaultIndex.Tally

variable (t u : Tally) (c d : Counter)

lemma foldl_additions (l : List (Counter × Nat)) (n : Nat) :
    l.foldl (fun n addition => n + addition.2) n =
      n + l.foldl (fun n addition => n + addition.2) 0 := by
  induction l generalizing n with
  | nil => rfl
  | cons a rest ih =>
    rw [List.foldl_cons, List.foldl_cons, ih, ih (0 + a.2), Nat.zero_add, Nat.add_assoc]

lemma append_empty : t.append {} = t := by simp [append]

lemma append_assoc (w : Tally) : (t.append u).append w = t.append (u.append w) := by simp [append]

lemma append_add (n : Nat) : t.append (u.add c n) = (t.append u).add c n := by simp [append, add]

theorem total_append : (t.append u).total c = t.total c + u.total c := by
  rw [total, append, List.filter_append, List.foldl_append, foldl_additions]
  rfl

theorem total_add_self (n : Nat) : (t.add c n).total c = t.total c + n := by
  have single : (Tally.mk [(c, n)]).total c = n := by simp [total]
  rw [show t.add c n = t.append ⟨[(c, n)]⟩ from rfl, total_append, single]

theorem total_add_ne (n : Nat) (h : c ≠ d) : (t.add c n).total d = t.total d := by
  have other : (Tally.mk [(c, n)]).total d = 0 := by simp [total, h]
  rw [show t.add c n = t.append ⟨[(c, n)]⟩ from rfl, total_append, other, Nat.add_zero]

/-- Adds one to a counter so many times. -/
def addOnes (t : Tally) (c : Counter) : Nat → Tally
  | 0 => t
  | n + 1 => (t.add c 1).addOnes c n

theorem total_addOnes_self (n : Nat) : (t.addOnes c n).total c = t.total c + n := by
  induction n generalizing t with
  | zero => rfl
  | succ n ih => rw [addOnes, ih, total_add_self, Nat.add_assoc, Nat.add_comm 1]

theorem total_addOnes_ne (n : Nat) (h : c ≠ d) : (t.addOnes c n).total d = t.total d := by
  induction n generalizing t with
  | zero => rfl
  | succ n ih => rw [addOnes, ih, total_add_ne _ _ _ _ h]

end VaultIndex.Tally
