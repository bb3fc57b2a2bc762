import Mathlib.Algebra.BigOperators.Group.Finset.Basic
import Mathlib.Algebra.GroupWithZero.Nat
import Mathlib.Data.List.Basic
import VaultIndex.Table.Lookup

/-!
# Updates, keys and bounds in tables
-/

namespace VaultIndex.Table

open Numbered (number)

variable {κ ν : Type} [Numbered κ]

lemma number_inj_iff {k i : κ} : number k = number i ↔ k = i :=
  ⟨Numbered.number_inj, fun h => h ▸ rfl⟩

/-! ### Updates -/

@[simp] lemma get?_update_self (t : Table κ ν) (k : κ) (f : Option ν → ν) :
    (t.update k f).get? k = some (f (t.get? k)) := by simp [update]

lemma get?_update_ne (t : Table κ ν) {k i : κ} (f : Option ν → ν) (h : k ≠ i) :
    (t.update k f).get? i = t.get? i := by rw [update, get?_insert_ne t _ h]

@[simp] lemma get?_emptyCollection (k : κ) : (∅ : Table κ ν).get? k = none := rfl

lemma isSome_get?_iff {t : Table κ ν} {k : κ} :
    (t.get? k).isSome = true ↔ ∃ v, (k, v) ∈ t.entries := by
  simp only [Option.isSome_iff_exists, get?_eq_some_iff]

/-- The entries under one key are at most one, the one that is found there. -/
lemma filter_key [DecidableEq κ] (t : Table κ ν) (k : κ) :
    t.entries.filter (·.1 = k) = ((t.get? k).map (k, ·)).toList := by
  obtain ⟨l, hl⟩ := t
  simp only [get?]
  induction l with
  | nil => rfl
  | cons a rest ih =>
    obtain ⟨ha, hr⟩ := List.pairwise_cons.1 hl
    by_cases h : a.1 = k
    · subst h
      have others : rest.filter (·.1 = a.1) = [] := by
        simp only [List.filter_eq_nil_iff, decide_eq_true_eq]
        intro b hb hba
        exact absurd (ha b hb) (by simp [hba])
      simp [others]
    · rw [List.filter_cons_of_neg (by simpa using h), ih hr,
        List.find?_cons_of_neg (by simpa [number_inj_iff] using h)]

/-! ### Keys -/

lemma mem_keys_iff {t : Table κ ν} {k : κ} : k ∈ t.keys ↔ (t.get? k).isSome = true := by
  simp [isSome_get?_iff, keys]

lemma pairwise_keys (t : Table κ ν) : t.keys.Pairwise fun a b => number a < number b :=
  List.pairwise_map.2 t.ascending

lemma nodup_keys (t : Table κ ν) : t.keys.Nodup := by
  refine t.pairwise_keys.imp fun hlt heq => ?_
  rw [heq] at hlt
  exact Nat.lt_irrefl _ hlt

/-- What is filed under a key above all others goes to the end. -/
lemma keys_insert_of_lt {t : Table κ ν} {k : κ} (v : ν)
    (above : ∀ i ∈ t.keys, number i < number k) :
    (t.insert k v).keys = t.keys ++ [k] := by
  obtain ⟨l, hl⟩ := t
  simp only [keys, insert, List.mem_map, forall_exists_index, and_imp] at above ⊢
  clear hl
  induction l with
  | nil => rfl
  | cons a rest ih =>
    have ha : number a.1 < number k := above a.1 a List.mem_cons_self rfl
    have later : ∀ i (e : κ × ν), e ∈ rest → e.1 = i → number i < number k := by
      intro i e he hi
      exact above i e (List.mem_cons_of_mem _ he) hi
    rw [place_of_gt ha, List.map_cons, List.map_cons, ih later, List.cons_append]

/-! ### Entries filed one after the other -/

lemma get?_foldl_insert [DecidableEq κ] (l : List (κ × ν)) (t : Table κ ν) (k : κ) :
    (l.foldl (fun t e => t.insert e.1 e.2) t).get? k =
      (((l.filter (·.1 = k)).getLast?).map (·.2)).or (t.get? k) := by
  induction l generalizing t with
  | nil => rfl
  | cons e rest ih =>
    rw [List.foldl_cons, ih]
    by_cases h : e.1 = k
    · subst h
      rw [get?_insert_self, List.filter_cons_of_pos (by simp), List.getLast?_cons]
      cases (rest.filter (·.1 = e.1)).getLast? <;> rfl
    · rw [get?_insert_ne _ _ h, List.filter_cons_of_neg (by simpa using h)]

/-- Of several entries under one key the last one counts. -/
theorem get?_ofList [DecidableEq κ] (l : List (κ × ν)) (k : κ) :
    (ofList l).get? k = ((l.filter (·.1 = k)).getLast?).map (·.2) := by
  rw [ofList, get?_foldl_insert, get?_empty, Option.or_none]

section Keyed

variable [DecidableEq κ] {f : ν → κ} {l l' : List ν}

/-- Of several entries that name one key themselves the last one counts. -/
theorem get?_ofList_keyed (f : ν → κ) (l : List ν) (k : κ) :
    (ofList (l.map fun v => (f v, v))).get? k = (l.filter (f · = k)).getLast? := by
  rw [get?_ofList, List.filter_map, List.getLast?_map, Option.map_map]
  exact Option.map_id'

omit [Numbered κ] in
lemma getLast?_filter_eq_some_iff (distinct : (l.map f).Nodup) {k : κ} {v : ν} :
    (l.filter (f · = k)).getLast? = some v ↔ v ∈ l ∧ f v = k := by
  constructor
  · intro h
    simpa using List.mem_of_getLast? h
  · rintro ⟨hmem, hk⟩
    cases h : (l.filter (f · = k)).getLast? with
    | none =>
      rw [List.getLast?_eq_none_iff, List.filter_eq_nil_iff] at h
      exact absurd (decide_eq_true hk) (h v hmem)
    | some w =>
      obtain ⟨hw, hwk⟩ : w ∈ l ∧ f w = k := by simpa using List.mem_of_getLast? h
      rw [List.inj_on_of_nodup_map distinct hw hmem (hwk.trans hk.symm)]

/-- Entries with different keys may come in any order. -/
theorem ofList_keyed_perm (distinct : (l.map f).Nodup) (h : l.Perm l') :
    ofList (l.map fun v => (f v, v)) = ofList (l'.map fun v => (f v, v)) := by
  apply ext_get?
  intro k
  have distinct' : (l'.map f).Nodup := (h.map f).nodup_iff.1 distinct
  ext v
  rw [get?_ofList_keyed, get?_ofList_keyed, getLast?_filter_eq_some_iff distinct,
    getLast?_filter_eq_some_iff distinct', h.mem_iff]

end Keyed

/-- Entries with different keys are those of the table that is made of them. -/
theorem perm_entries_ofList [DecidableEq κ] {l : List (κ × ν)} (distinct : (l.map (·.1)).Nodup) :
    (ofList l).entries.Perm l := by
  have nodup : (ofList l).entries.Nodup := List.Nodup.of_map Prod.fst (nodup_keys (ofList l))
  refine (List.perm_ext_iff_of_nodup nodup (.of_map Prod.fst distinct)).2 ?_
  rintro ⟨k, v⟩
  rw [← get?_eq_some_iff, get?_ofList, Option.map_eq_some_iff]
  constructor
  · rintro ⟨e, last, rfl⟩
    obtain ⟨hmem, rfl⟩ := (getLast?_filter_eq_some_iff distinct).1 last
    exact hmem
  · intro hmem
    exact ⟨(k, v), (getLast?_filter_eq_some_iff distinct).2 ⟨hmem, rfl⟩, rfl⟩

/-- A table is made again of its entries, in whatever order they come. -/
theorem ofList_of_perm [DecidableEq κ] {t : Table κ ν} {l : List (κ × ν)} (h : l.Perm t.entries) :
    ofList l = t := by
  have distinct : (l.map (·.1)).Nodup := (h.map _).nodup_iff.2 t.nodup_keys
  apply ext_get?
  intro k
  ext v
  rw [get?_eq_some_iff, get?_eq_some_iff, (perm_entries_ofList distinct).mem_iff, h.mem_iff]

/-! ### Values -/

@[simp] lemma get?_map {μ : Type} (f : ν → μ) (t : Table κ ν) (k : κ) :
    (t.map f).get? k = (t.get? k).map f := by
  rw [get?, get?, map, List.find?_map, Option.map_map, Option.map_map]
  rfl

/-- Values that name the keys under which they are filed name different ones. -/
lemma nodup_map_values {f : ν → κ} {t : Table κ ν} (keyed : ∀ k v, t.get? k = some v → f v = k) :
    (t.values.map f).Nodup := by
  have keys : t.values.map f = t.keys := by
    rw [values, List.map_map]
    apply List.map_congr_left
    rintro ⟨k, v⟩ hmem
    exact keyed k v ((get?_eq_some_iff _ _ _).2 hmem)
  exact keys ▸ t.nodup_keys

lemma mem_values_iff {t : Table κ ν} {v : ν} : v ∈ t.values ↔ ∃ k, t.get? k = some v := by
  simp [values, get?_eq_some_iff]

/-- A filed value joins the others; the one that stood under its key leaves them. -/
lemma perm_values_insert (t : Table κ ν) (k : κ) (v : ν) :
    ((t.get? k).toList ++ (t.insert k v).values).Perm (v :: t.values) := by
  obtain ⟨l, hl⟩ := t
  simp only [get?, values, insert]
  induction l with
  | nil => simp [place]
  | cons a rest ih =>
    obtain ⟨ha, hr⟩ := List.pairwise_cons.1 hl
    rcases Nat.lt_trichotomy (number k) (number a.1) with h | h | h
    · have absent : (a :: rest).find? (fun e => number e.1 == number k) = none := by
        rw [List.find?_eq_none]
        intro b hb
        have above : number k < number b.1 := by
          rcases List.mem_cons.1 hb with rfl | hb
          · exact h
          · exact Nat.lt_trans h (ha b hb)
        simpa using (Nat.ne_of_lt above).symm
      rw [place_of_lt h, absent]
      simp
    · rw [place_of_eq h, List.find?_cons_of_pos (by simp [h])]
      exact List.Perm.swap _ _ _
    · rw [place_of_gt h, List.find?_cons_of_neg (by simp; omega), List.map_cons]
      exact List.perm_middle.trans (((ih hr).cons _).trans (List.Perm.swap _ _ _))

/-- Where an update adds to the weight of a value, it adds as much to the weight of all. -/
lemma sum_values_update (w : ν → Nat) (t : Table κ ν) {k : κ} {f : Option ν → ν} {n : Nat}
    (h : w (f (t.get? k)) = ((t.get? k).map w).getD 0 + n) :
    ((t.update k f).values.map w).sum = (t.values.map w).sum + n := by
  have moved := ((t.perm_values_insert k (f (t.get? k))).map w).sum_nat
  rw [List.map_append, List.sum_append, List.map_cons, List.sum_cons, h] at moved
  have stood : ((t.get? k).toList.map w).sum = ((t.get? k).map w).getD 0 := by
    cases t.get? k <;> simp
  rw [update]
  omega

/-- The weights of all values add up to the weights found under any keys that include those of the
table. -/
lemma sum_values_eq_of_keys [DecidableEq κ] (w : ν → Nat) {t : Table κ ν} {ks : List κ}
    (distinct : ks.Nodup) (covers : ∀ k, (t.get? k).isSome = true → k ∈ ks) :
    (t.values.map w).sum = (ks.map fun k => ((t.get? k).map w).getD 0).sum := by
  have weights : t.values.map w = t.keys.map fun k => ((t.get? k).map w).getD 0 := by
    rw [values, keys, List.map_map, List.map_map]
    apply List.map_congr_left
    rintro ⟨k, v⟩ hmem
    simp [(get?_eq_some_iff t k v).2 hmem]
  rw [weights, ← List.sum_toFinset _ t.nodup_keys, ← List.sum_toFinset _ distinct]
  apply Finset.sum_subset
  · intro k hk
    rw [List.mem_toFinset, mem_keys_iff] at hk
    exact List.mem_toFinset.2 (covers k hk)
  · intro k _ absent
    rw [List.mem_toFinset, mem_keys_iff, Option.not_isSome_iff_eq_none] at absent
    simp [absent]

/-- Where every member of a list that is filed has the key under which it is filed, the members with
a key are those filed there. -/
lemma filter_flatten_values [DecidableEq κ] {t : Table κ (List ν)} {f : ν → κ}
    (tidy : ∀ k l, t.get? k = some l → ∀ x ∈ l, f x = k) (k : κ) :
    t.values.flatten.filter (f · = k) = (t.get? k).getD [] := by
  have whole : ∀ e ∈ t.entries, e.2.filter (f · = k) = if e.1 = k then e.2 else [] := by
    rintro ⟨i, l⟩ hmem
    have keyed := tidy i l ((get?_eq_some_iff t i l).2 hmem)
    by_cases hi : i = k
    · subst hi
      simpa [List.filter_eq_self] using keyed
    · simp only [hi, if_false, List.filter_eq_nil_iff, decide_eq_true_eq]
      intro x hx hk
      exact hi ((keyed x hx).symm.trans hk)
  have own : t.values.flatten.filter (f · = k) =
      ((t.entries.filter (·.1 = k)).map (·.2)).flatten := by
    rw [values, List.filter_flatten, List.map_map]
    generalize t.entries = l at whole
    induction l with
    | nil => rfl
    | cons e rest ih =>
      rw [List.map_cons, List.flatten_cons, ih fun x hx => whole x (List.mem_cons_of_mem _ hx),
        Function.comp_apply, whole e List.mem_cons_self]
      by_cases he : e.1 = k <;> simp [he]
  rw [own, filter_key]
  cases t.get? k <;> simp

/-! ### Bounds -/

/-- The last of some ascending entries is the one with the greatest key. -/
lemma getLast?_eq_some_iff_of_ascending {l : List (κ × ν)} {e : κ × ν}
    (hl : l.Pairwise fun a b => number a.1 < number b.1) :
    l.getLast? = some e ↔ e ∈ l ∧ ∀ x ∈ l, number x.1 ≤ number e.1 := by
  rcases List.eq_nil_or_concat l with rfl | ⟨rest, last, rfl⟩
  · simp
  · rw [List.concat_eq_append] at hl ⊢
    have before : ∀ x ∈ rest, number x.1 < number last.1 := by
      intro x hx
      exact (List.pairwise_append.1 hl).2.2 x hx last (by simp)
    simp only [List.getLast?_append, List.getLast?_singleton, Option.some_or, Option.some.injEq,
      List.mem_append, List.mem_singleton]
    constructor
    · rintro rfl
      refine ⟨.inr rfl, ?_⟩
      rintro x (hx | rfl)
      · exact Nat.le_of_lt (before x hx)
      · exact Nat.le_refl _
    · rintro ⟨he | rfl, hmax⟩
      · exact absurd (before e he) (Nat.not_lt.2 (hmax last (.inr rfl)))
      · rfl

theorem atOrBelow?_eq_some_iff {t : Table κ ν} {bound k : κ} {v : ν} :
    t.atOrBelow? bound = some (k, v) ↔
      t.get? k = some v ∧ number k ≤ number bound ∧
        ∀ i, (t.get? i).isSome = true → number i ≤ number bound → number i ≤ number k := by
  have hf : (t.entries.filter fun e => decide (number e.1 ≤ number bound)).Pairwise
      fun a b => number a.1 < number b.1 := t.ascending.filter _
  rw [atOrBelow?, getLast?_eq_some_iff_of_ascending hf]
  simp only [List.mem_filter, decide_eq_true_eq, ← get?_eq_some_iff, isSome_get?_iff, Prod.forall,
    and_assoc]
  refine and_congr_right fun _ => and_congr_right fun _ => ⟨?_, ?_⟩
  · rintro h i ⟨w, hw⟩ hi
    exact h i w ⟨hw, hi⟩
  · rintro h i w ⟨hw, hi⟩
    exact h i ⟨w, hw⟩ hi

theorem atOrBelow?_eq_none_iff {t : Table κ ν} {bound : κ} :
    t.atOrBelow? bound = none ↔ ∀ i, (t.get? i).isSome = true → number bound < number i := by
  rw [atOrBelow?, List.getLast?_eq_none_iff, List.filter_eq_nil_iff]
  simp only [decide_eq_true_eq, isSome_get?_iff, Nat.not_le, Prod.forall]
  exact ⟨fun h i ⟨w, hw⟩ => h i w hw, fun h i w hw => h i ⟨w, hw⟩⟩

end VaultIndex.Table
