import VaultIndex.Table.Basic

/-!
# Look-up in tables

A value filed under a key is found under that key and changes no other (`Table.get?_insert`), and
tables that answer every look-up alike are equal (`Table.ext_get?`).
-/

namespace VaultIndex.Table

open Numbered (number)

variable {κ ν : Type} [Numbered κ]

@[simp] theorem get?_empty (k : κ) : (empty : Table κ ν).get? k = none := rfl

theorem place_of_lt {k : κ} {v : ν} {a : κ × ν} {l : List (κ × ν)} (h : number k < number a.1) :
    place k v (a :: l) = (k, v) :: a :: l := by simp [place, h]

theorem place_of_eq {k : κ} {v : ν} {a : κ × ν} {l : List (κ × ν)} (h : number k = number a.1) :
    place k v (a :: l) = (k, v) :: l := by simp [place, h]

theorem place_of_gt {k : κ} {v : ν} {a : κ × ν} {l : List (κ × ν)} (h : number a.1 < number k) :
    place k v (a :: l) = a :: place k v l := by
  simp [place, show ¬number k < number a.1 by omega, show ¬number k = number a.1 by omega]

/-- A filed value is found under its own key, and every other key keeps its value. -/
theorem find?_place (k i : κ) (v : ν) (l : List (κ × ν)) :
    (place k v l).find? (fun e => number e.1 == number i) =
      if number k = number i then some (k, v) else l.find? fun e => number e.1 == number i := by
  induction l with
  | nil => by_cases hk : number k = number i <;> simp [place, hk]
  | cons a rest ih =>
    by_cases hk : number k = number i
    · simp only [hk, if_true] at ih ⊢
      rcases Nat.lt_trichotomy (number k) (number a.1) with h | h | h
      · simp [place_of_lt h, hk]
      · simp [place_of_eq h, hk]
      · rw [place_of_gt h, List.find?_cons_of_neg (by simp; omega), ih]
    · simp only [hk, if_false] at ih ⊢
      rcases Nat.lt_trichotomy (number k) (number a.1) with h | h | h
      · rw [place_of_lt h, List.find?_cons_of_neg (by simpa using hk)]
      · rw [place_of_eq h, List.find?_cons_of_neg (by simpa using hk),
          List.find?_cons_of_neg (by simp; omega)]
      · rw [place_of_gt h, List.find?_cons, List.find?_cons, ih]

theorem get?_insert (t : Table κ ν) (k i : κ) (v : ν) :
    (t.insert k v).get? i = if number k = number i then some v else t.get? i := by
  unfold get? insert
  rw [find?_place]
  split <;> simp

@[simp] theorem get?_insert_self (t : Table κ ν) (k : κ) (v : ν) :
    (t.insert k v).get? k = some v := by simp [get?_insert]

theorem get?_insert_ne (t : Table κ ν) {k i : κ} (v : ν) (h : k ≠ i) :
    (t.insert k v).get? i = t.get? i := by
  simp [get?_insert, show ¬number k = number i from fun e => h (Numbered.number_inj e)]

theorem get?_eq_some_iff (t : Table κ ν) (k : κ) (v : ν) :
    t.get? k = some v ↔ (k, v) ∈ t.entries := by
  obtain ⟨l, hl⟩ := t
  simp only [get?]
  induction l with
  | nil => simp
  | cons a rest ih =>
    obtain ⟨ha, hr⟩ := List.pairwise_cons.1 hl
    rw [List.find?_cons]
    by_cases h : number a.1 = number k
    · obtain rfl : a.1 = k := Numbered.number_inj h
      simp only [beq_self_eq_true, Option.map_some, Option.some.injEq, List.mem_cons]
      refine ⟨fun e => .inl (by rw [← e]), fun e => e.elim (fun e => by rw [← e]) fun e => ?_⟩
      exact absurd (ha _ e) (Nat.lt_irrefl _)
    · simp only [show (number a.1 == number k) = false by simp [h], ih hr, List.mem_cons]
      exact ⟨.inr, fun e => e.resolve_left fun e => h (by rw [← e])⟩

/-- Ascending entry lists with the same members are the same list. -/
theorem eq_of_mem_iff {l m : List (κ × ν)}
    (hl : l.Pairwise fun a b => number a.1 < number b.1)
    (hm : m.Pairwise fun a b => number a.1 < number b.1) (h : ∀ e, e ∈ l ↔ e ∈ m) : l = m := by
  refine List.Perm.eq_of_pairwise (fun a b _ _ h₁ h₂ => absurd h₁ (by omega)) hl hm ?_
  have nodup {l : List (κ × ν)} (hl : l.Pairwise fun a b => number a.1 < number b.1) : l.Nodup :=
    hl.imp fun h e => absurd h (by simp [e])
  exact (List.perm_ext_iff_of_nodup (nodup hl) (nodup hm)).2 h

/-- Two tables that answer every look-up alike are the same table. -/
theorem ext_get? {s t : Table κ ν} (h : ∀ k, s.get? k = t.get? k) : s = t := by
  have : s.entries = t.entries := eq_of_mem_iff s.ascending t.ascending fun e => by
    rw [← get?_eq_some_iff s e.1 e.2, ← get?_eq_some_iff t e.1 e.2, h]
  cases s; cases t; simp_all

end VaultIndex.Table
