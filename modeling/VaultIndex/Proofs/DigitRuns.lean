import Mathlib.Data.Nat.Digits.Defs
import VaultIndex.Text.Digits

/-!
# Written numbers

The characters that a written number is made of, and how many there are. Zeros in front of a run of
digits count for nothing (`read?_replicate_append`), and each one behind it counts the base
(`read?_append_replicate`).
-/

namespace VaultIndex.Digits

variable {base n width : Nat} {c : Char}

lemma digit?_zero (h : 0 < base) : digit? base '0' = some 0 := by
  simp [digit?, Option.filter, h]

/-! ### Characters -/

lemma exists_digitChar_of_mem_write (h : 1 < base) (hc : c ∈ write base n) :
    ∃ d < base, c = d.digitChar := by
  induction n using Nat.strongRecOn with
  | ind n ih =>
    unfold write at hc ih
    rcases Nat.lt_or_ge n base with below | above
    · rw [Nat.toDigits_of_lt_base below, List.mem_singleton] at hc
      exact ⟨n, below, hc⟩
    · rw [Nat.toDigits_of_base_le h above, List.mem_append, List.mem_singleton] at hc
      rcases hc with hc | rfl
      · exact ih (n / base) (Nat.div_lt_self (by omega) h) hc
      · exact ⟨n % base, Nat.mod_lt n (by omega), rfl⟩

lemma exists_digitChar_of_mem_writePadded (h : 1 < base) (hc : c ∈ writePadded base width n) :
    ∃ d < base, c = d.digitChar := by
  rw [writePadded, List.leftpad, List.mem_append, List.mem_replicate] at hc
  rcases hc with ⟨-, rfl⟩ | hc
  · exact ⟨0, by omega, rfl⟩
  · exact exists_digitChar_of_mem_write h hc

lemma isDigit_of_mem_write (hc : c ∈ write 10 n) : c.isDigit = true :=
  Nat.isDigit_of_mem_toDigits (by decide) (by decide) hc

/-- Only zero is written with a zero in front. -/
lemma exists_write_eq_cons (h : 1 < base) (hn : 0 < n) :
    ∃ d rest, 0 < d ∧ d < base ∧ write base n = d.digitChar :: rest := by
  induction n using Nat.strongRecOn with
  | ind n ih =>
    unfold write at ih ⊢
    rcases Nat.lt_or_ge n base with below | above
    · exact ⟨n, [], hn, below, Nat.toDigits_of_lt_base below⟩
    · obtain ⟨d, rest, hd, hb, heq⟩ :=
        ih (n / base) (Nat.div_lt_self hn h) (Nat.div_pos above (by omega))
      refine ⟨d, rest ++ [(n % base).digitChar], hd, hb, ?_⟩
      rw [Nat.toDigits_of_base_le h above, heq, List.cons_append]

lemma write_ne_nil (h : 1 < base) (n : Nat) : write base n ≠ [] := by
  rcases Nat.eq_zero_or_pos n with rfl | hn
  · rw [write, Nat.toDigits_zero]
    exact List.cons_ne_nil _ _
  · obtain ⟨d, rest, -, -, heq⟩ := exists_write_eq_cons h hn
    rw [heq]
    exact List.cons_ne_nil _ _

lemma length_writePadded (hw : 0 < width) (h : n < base ^ width) :
    (writePadded base width n).length = width := by
  have fits : (write base n).length ≤ width := Nat.toDigits_length base n width hw h
  rw [writePadded, List.leftpad, List.length_append, List.length_replicate]
  omega

/-! ### Zeros around digits -/

lemma read?_replicate_append (h : 0 < base) (k : Nat) (cs : List Char) :
    read? base (List.replicate k '0' ++ cs) = read? base cs := by
  rw [read?, readFrom?_append, readFrom?_replicate_zero h]
  rfl

lemma read?_append_replicate (h : 0 < base) {cs : List Char} (hcs : read? base cs = some n)
    (k : Nat) : read? base (cs ++ List.replicate k '0') = some (n * base ^ k) := by
  have zeros (m : Nat) : readFrom? base m (List.replicate k '0') = some (m * base ^ k) := by
    induction k generalizing m with
    | zero => simp [readFrom?]
    | succ k ih =>
      rw [List.replicate_succ, readFrom?, digit?_zero h, Option.bind_some, ih, Nat.add_zero,
        Nat.pow_succ', Nat.mul_comm base m, Nat.mul_assoc]
  rw [read?, readFrom?_append, show readFrom? base 0 cs = some n from hcs, Option.bind_some, zeros]

end VaultIndex.Digits
