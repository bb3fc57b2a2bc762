import Mathlib.Algebra.GroupWithZero.Nat
import Mathlib.Data.List.Nodup
import Mathlib.Data.List.Perm.Basic
import VaultIndex.Task.Basic

/-!
# Moves of tasks

A move of a task replaces it in the list of all tasks. What adds up over the list changes by what it
changes for this one. What every move keeps, a run keeps (`TaskRun.preserves`); and where some task
can move until all are over, and every move leaves less to do, all tasks can be brought to their end
(`TaskRun.exists_over`).
-/

namespace VaultIndex

variable {α β : Type}

lemma map_set_of_eq {f : α → β} {l : List α} {i : Nat} {a b : α} (ha : l[i]? = some a)
    (hab : f b = f a) : (l.set i b).map f = l.map f := by
  obtain ⟨hi, rfl⟩ := List.getElem?_eq_some_iff.1 ha
  rw [List.map_set, hab, ← List.getElem_map f (h := by simpa using hi), List.set_getElem_self]

/-- Where `f` tells the members of a list apart and one of them is replaced by `b`, every member is
`b` or differs from it under `f`. -/
lemma mem_set_cases {f : α → β} {l : List α} {i : Nat} {a b x : α} (ha : l[i]? = some a)
    (hab : f b = f a) (hd : (l.map f).Nodup) (hx : x ∈ l.set i b) :
    x = b ∨ x ∈ l ∧ f x ≠ f b := by
  rcases List.mem_or_eq_of_mem_set hx with hmem | rfl
  · by_cases hf : f x = f b
    · have hb : b ∈ l.set i b := List.mem_set (List.getElem?_eq_some_iff.1 ha).1 b
      exact .inl (List.inj_on_of_nodup_map (map_set_of_eq ha hab ▸ hd) hx hb hf)
    · exact .inr ⟨hmem, hf⟩
  · exact .inl rfl

/-- A member of a list and what replaces it stand beside the same others. -/
lemma perm_set {l : List α} {i : Nat} {a : α} (ha : l[i]? = some a) (b : α) :
    l.Perm (a :: l.eraseIdx i) ∧ (l.set i b).Perm (b :: l.eraseIdx i) := by
  obtain ⟨hi, rfl⟩ := List.getElem?_eq_some_iff.1 ha
  exact ⟨(List.getElem_cons_eraseIdx_perm hi).symm, List.set_perm_cons_eraseIdx hi b⟩

lemma sum_map_set {f : α → Nat} {l : List α} {i : Nat} {a b : α} (ha : l[i]? = some a) :
    ((l.set i b).map f).sum + f a = (l.map f).sum + f b := by
  obtain ⟨before, after⟩ := perm_set ha b
  have was := (before.map f).sum_nat
  have is := (after.map f).sum_nat
  rw [List.map_cons, List.sum_cons] at was is
  omega

lemma mem_set_of_ne {l : List α} {i : Nat} {a b x : α} (ha : l[i]? = some a) (hx : x ∈ l)
    (hne : x ≠ a) : x ∈ l.set i b := by
  obtain ⟨j, hj⟩ := List.mem_iff_getElem?.1 hx
  have apart : i ≠ j := by
    rintro rfl
    rw [ha] at hj
    exact hne (Option.some.inj hj).symm
  apply List.mem_iff_getElem?.2
  exact ⟨j, by rw [List.getElem?_set_ne apart, hj]⟩

lemma sum_map_set_lt {f : α → Nat} {l : List α} {i : Nat} {a b : α} (ha : l[i]? = some a)
    (hlt : f b < f a) : ((l.set i b).map f).sum < (l.map f).sum := by
  have replaced := sum_map_set (f := f) (b := b) ha
  omega

/-- Of tasks that are not all over one is under way, or one waits and fewer than any positive bound
are under way. -/
lemma exists_ready {isOver : α → Bool} (isActive : α → Bool) {l : List α} {bound : Nat}
    (hb : 0 < bound) (unfinished : l.all isOver = false) :
    ∃ (i : Nat) (t : α), l[i]? = some t ∧
      (isActive t = true ∨ isOver t = false ∧ l.countP isActive < bound) := by
  by_cases active : ∃ t ∈ l, isActive t = true
  · obtain ⟨t, ht, under⟩ := active
    obtain ⟨i, hi⟩ := List.mem_iff_getElem?.1 ht
    exact ⟨i, t, hi, .inl under⟩
  · have idle : l.countP isActive = 0 :=
      List.countP_eq_zero.2 fun t ht under => active ⟨t, ht, under⟩
    obtain ⟨t, ht, left⟩ : ∃ t ∈ l, isOver t = false := by simpa using unfinished
    obtain ⟨i, hi⟩ := List.mem_iff_getElem?.1 ht
    exact ⟨i, t, hi, .inr ⟨left, idle ▸ hb⟩⟩

namespace TaskRun

variable {move? : α → Nat → Option α} {s t u : α}

theorem trans (first : TaskRun move? s t) (later : TaskRun move? t u) : TaskRun move? s u := by
  induction later with
  | refl => exact first
  | step i _ move ih => exact .step i ih move

/-- What every move preserves holds of every state that is reached. -/
theorem preserves {P : α → Prop} (run : TaskRun move? s t)
    (kept : ∀ {s t i}, move? s i = some t → P s → P t) (start : P s) : P t := by
  induction run with
  | refl => exact start
  | step i _ move ih => exact kept move ih

/-- What no move changes is the same in every state that is reached. -/
lemma eq_of_kept {f : α → β} (run : TaskRun move? s t)
    (kept : ∀ {s t i}, move? s i = some t → f t = f s) : f t = f s :=
  run.preserves (P := fun u => f u = f s) (fun move same => (kept move).trans same) rfl

/-- Where a move that leaves less to do can be made unless all is over, an end is reached. -/
theorem exists_over {isOver : α → Bool} (left : α → Nat)
    (goesOn : ∀ s, isOver s = false → ∃ i t, move? s i = some t ∧ left t < left s) (s : α) :
    ∃ t, TaskRun move? s t ∧ isOver t = true := by
  induction hn : left s using Nat.strongRecOn generalizing s with
  | ind n ih =>
    cases ended : isOver s with
    | true => exact ⟨s, .refl s, ended⟩
    | false =>
      obtain ⟨i, t, move, fewer⟩ := goesOn s ended
      obtain ⟨u, later, done⟩ := ih _ (hn ▸ fewer) t rfl
      exact ⟨u, (TaskRun.step i (.refl s) move).trans later, done⟩

end TaskRun

end VaultIndex
