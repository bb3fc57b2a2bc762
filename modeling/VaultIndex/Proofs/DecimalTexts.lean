import Mathlib.Data.List.TakeWhile
import VaultIndex.Decimal.Text
import VaultIndex.Proofs.DigitRuns

/-!
# Texts of decimals

A decimal whose scale is in range is read back from its text as the same number
(`Decimal.ofText?_text`, `Decimal.same_reread`), whether the text is positional or has an exponent.
What changes is the form: zeros written behind the digits become digits, and zero loses its scale.
-/

namespace VaultIndex.Decimal

/-! ### Runs of digits -/

/-- A run of decimal digits that is read as `n`. -/
structure IsRun (ds : List Char) (n : Nat) : Prop where
  digits : ∀ c ∈ ds, c.isDigit = true
  ne_nil : ds ≠ []
  read : Digits.read? 10 ds = some n

lemma isRun_write (n : Nat) : IsRun (Digits.write 10 n) n where
  digits _ := Digits.isDigit_of_mem_write
  ne_nil := Digits.write_ne_nil (by decide) n
  read := Digits.read?_write (by decide) (by decide) n

namespace IsRun

variable {ds : List Char} {n : Nat}

lemma zeros_append (h : IsRun ds n) (k : Nat) : IsRun (List.replicate k '0' ++ ds) n where
  digits c hc := by
    rcases List.mem_append.1 hc with hc | hc
    · rw [(List.mem_replicate.1 hc).2]
      rfl
    · exact h.digits c hc
  ne_nil := List.append_ne_nil_of_right_ne_nil _ h.ne_nil
  read := by rw [Digits.read?_replicate_append (by decide), h.read]

lemma append_zeros (h : IsRun ds n) (k : Nat) :
    IsRun (ds ++ List.replicate k '0') (n * 10 ^ k) where
  digits c hc := by
    rcases List.mem_append.1 hc with hc | hc
    · exact h.digits c hc
    · rw [(List.mem_replicate.1 hc).2]
      rfl
  ne_nil := List.append_ne_nil_of_left_ne_nil h.ne_nil _
  read := Digits.read?_append_replicate (by decide) h.read k

lemma ne_of_mem (h : IsRun ds n) {c : Char} (hc : c ∈ ds) {d : Char} (hd : d.isDigit = false) :
    c ≠ d := by
  rintro rfl
  exact absurd (h.digits c hc) (by simp [hd])

lemma readInteger?_signed (h : IsRun ds n) {cs : List Char} {negative : Bool}
    (hs : signed cs = (negative, ds)) :
    readInteger? cs = some (if negative then -(n : Int) else n) := by
  obtain ⟨d, rest, rfl⟩ := List.exists_cons_of_ne_nil h.ne_nil
  have digits : (d :: rest).filter (· ≠ '_') = d :: rest := by
    rw [List.filter_eq_self]
    intro c hc
    exact decide_eq_true (h.ne_of_mem hc rfl)
  have first := h.digits d List.mem_cons_self
  rw [readInteger?, hs]
  simp only [List.head?_cons, digits, h.read, first, guard_true, Option.bind_eq_bind,
    Option.bind_some, Option.pure_def]

lemma signed_eq (h : IsRun ds n) : signed ds = (false, ds) := by
  obtain ⟨d, rest, rfl⟩ := List.exists_cons_of_ne_nil h.ne_nil
  have minus : d ≠ '-' := h.ne_of_mem List.mem_cons_self rfl
  have plus : d ≠ '+' := h.ne_of_mem List.mem_cons_self rfl
  exact signed.eq_3 _ (by simp [minus]) (by simp [plus])

lemma readExponent?_signed (h : IsRun ds n) {sign : Char} {negative : Bool}
    (hs : signed (sign :: ds) = (negative, ds)) (plain : sign ≠ '_') :
    readExponent? (sign :: ds) = some (if negative then -(n : Int) else n) := by
  have none : '_' ∉ sign :: ds := by
    intro hmem
    rcases List.mem_cons.1 hmem with heq | hmem
    · exact plain heq.symm
    · exact h.ne_of_mem hmem rfl rfl
  rw [readExponent?, if_neg (by simpa using none)]
  exact h.readInteger?_signed hs

end IsRun

/-! ### Points -/

/-- Digits, without a point or with one in front of the last so many of them. -/
inductive Pointed : List Char → List Char → Nat → Prop where
  | whole (ds : List Char) : Pointed ds ds 0
  | point (whole fraction : List Char) :
      Pointed (whole ++ '.' :: fraction) (whole ++ fraction) fraction.length

namespace Pointed

variable {cs ds : List Char} {places n : Nat}

lemma unpointed_eq (h : Pointed cs ds places) (hr : IsRun ds n) : unpointed cs = (ds, places) := by
  cases h with
  | whole =>
    have none : ∀ c ∈ cs, c ≠ '.' := fun c hc => hr.ne_of_mem hc rfl
    simp only [unpointed]
    rw [List.dropWhile_eq_nil_iff.2 (by simpa using none), List.takeWhile_eq_self_iff.2
      (by simpa using none)]
  | point whole fraction =>
    have none : ∀ c ∈ whole, c ≠ '.' := fun c hc =>
      hr.ne_of_mem (List.mem_append_left _ hc) rfl
    have digits : fraction.filter (· ≠ '_') = fraction := by
      rw [List.filter_eq_self]
      intro c hc
      exact decide_eq_true (hr.ne_of_mem (List.mem_append_right _ hc) rfl)
    have front : (whole ++ '.' :: fraction).takeWhile (· ≠ '.') = whole := by
      rw [List.takeWhile_append_of_pos (by simpa using none)]
      simp
    have behind : (whole ++ '.' :: fraction).dropWhile (· ≠ '.') = '.' :: fraction := by
      rw [List.dropWhile_append_of_pos (by simpa using none)]
      simp
    simp only [unpointed]
    rw [front, behind]
    simp only [digits]

lemma unmarked (h : Pointed cs ds places) (hr : IsRun ds n) : ∀ c ∈ cs, c ≠ 'e' ∧ c ≠ 'E' := by
  have digits : ∀ c ∈ ds, c ≠ 'e' ∧ c ≠ 'E' := fun c hc =>
    ⟨hr.ne_of_mem hc rfl, hr.ne_of_mem hc rfl⟩
  cases h with
  | whole => exact digits
  | point whole fraction =>
    intro c hc
    rw [List.mem_append, List.mem_cons] at hc
    rcases hc with hc | rfl | hc
    · exact digits c (List.mem_append_left _ hc)
    · exact ⟨by decide, by decide⟩
    · exact digits c (List.mem_append_right _ hc)

end Pointed

/-- Zeros stand in front of the digits where a point is to stand farther left than the first one. -/
lemma exists_pointed {ds : List Char} {n : Nat} (h : IsRun ds n) (places : Nat) :
    ∃ run, Pointed (pointed ds places) run places ∧ IsRun run n := by
  unfold pointed
  split
  · next none =>
    subst none
    exact ⟨ds, .whole ds, h⟩
  split
  · next inside =>
    refine ⟨ds, ?_, h⟩
    have split := Pointed.point (ds.take (ds.length - places)) (ds.drop (ds.length - places))
    rw [List.take_append_drop, List.length_drop] at split
    rwa [show ds.length - (ds.length - places) = places by omega] at split
  · next outside =>
    refine ⟨List.replicate (places - ds.length + 1) '0' ++ ds, ?_, h.zeros_append _⟩
    have split := Pointed.point ['0'] (List.replicate (places - ds.length) '0' ++ ds)
    rwa [List.length_append, List.length_replicate,
      show places - ds.length + ds.length = places by omega] at split

lemma pointed_leading {ds : List Char} (h : ds ≠ []) :
    Pointed (leading ds) ds (ds.length - 1) := by
  match ds, h with
  | [d], _ => exact .whole [d]
  | d :: e :: rest, _ => exact .point [d] (e :: rest)

/-! ### Exponents -/

/-- A mark with what is read behind it as an exponent, or nothing. -/
inductive Exponent : List Char → Int → Prop where
  | absent : Exponent [] 0
  | marked {mark : Char} {cs : List Char} {exponent : Int} (isMark : mark = 'e' ∨ mark = 'E')
      (read : readExponent? cs = some exponent) : Exponent (mark :: cs) exponent

lemma Exponent.minus (n : Nat) : Exponent ('E' :: '-' :: Digits.write 10 n) (-(n : Int)) :=
  .marked (.inr rfl)
    ((isRun_write n).readExponent?_signed (show _ = (true, _) from rfl) (by decide))

lemma Exponent.plus (n : Nat) : Exponent ('e' :: '+' :: Digits.write 10 n) n :=
  .marked (.inl rfl)
    ((isRun_write n).readExponent?_signed (show _ = (false, _) from rfl) (by decide))

lemma ofText?_ofList {front tail digits : List Char} {places : Nat} {exponent unscaled : Int}
    (unmarked : ∀ c ∈ front, c ≠ 'e' ∧ c ≠ 'E') (he : Exponent tail exponent)
    (point : unpointed front = (digits, places)) (read : readInteger? digits = some unscaled)
    (range : scaleInRange (places - exponent) = true) :
    ofText? (String.ofList (front ++ tail)) = some ⟨unscaled, places - exponent⟩ := by
  have plain : ∀ c ∈ front, (decide (¬(c = 'e' ∨ c = 'E'))) = true := by
    intro c hc
    simpa using unmarked c hc
  have before : (front ++ tail).takeWhile (fun c => decide (¬(c = 'e' ∨ c = 'E'))) = front := by
    rw [List.takeWhile_append_of_pos plain]
    cases he with
    | absent => rw [List.takeWhile_nil, List.append_nil]
    | marked isMark => rw [List.takeWhile_cons_of_neg (by simp [isMark]), List.append_nil]
  have behind : (front ++ tail).dropWhile (fun c => decide (¬(c = 'e' ∨ c = 'E'))) = tail := by
    rw [List.dropWhile_append_of_pos plain]
    cases he with
    | absent => rw [List.dropWhile_nil]
    | marked isMark => rw [List.dropWhile_cons_of_neg (by simp [isMark])]
  simp only [ofText?, String.toList_ofList, before, behind, point, read]
  cases he with
  | absent => simp only [Option.bind_eq_bind, Option.bind_some, range, guard_true, Option.pure_def]
  | marked isMark readExponent =>
    simp only [Option.bind_eq_bind, Option.bind_some, readExponent, range, guard_true,
      Option.pure_def]

/-! ### Numerals -/

/-- Digits with or without a point, and an exponent or none: `n` units at a scale. -/
inductive IsNumeral : List Char → Nat → Int → Prop where
  | mk {front tail run : List Char} {n places : Nat} {exponent : Int}
      (digits : Pointed front run places) (isRun : IsRun run n)
      (isExponent : Exponent tail exponent) :
      IsNumeral (front ++ tail) n (places - exponent)

lemma IsNumeral.of_pointed {cs run : List Char} {n places : Nat} (digits : Pointed cs run places)
    (isRun : IsRun run n) : IsNumeral cs n places := by
  have numeral := IsNumeral.mk digits isRun .absent
  rwa [List.append_nil, Int.sub_zero] at numeral

/-- A numeral is read as the number that it is, with a sign in front and without. -/
lemma IsNumeral.ofText?_eq {cs : List Char} {n : Nat} {scale : Int} (h : IsNumeral cs n scale)
    (range : scaleInRange scale = true) :
    ofText? (String.ofList cs) = some ⟨n, scale⟩ ∧
    ofText? (String.ofList ('-' :: cs)) = some ⟨-n, scale⟩ := by
  obtain ⟨digits, isRun, isExponent⟩ := h
  rename_i front tail run places exponent
  have unmarked := digits.unmarked isRun
  have point := digits.unpointed_eq isRun
  constructor
  · exact ofText?_ofList unmarked isExponent point (isRun.readInteger?_signed isRun.signed_eq) range
  · have signedPoint : unpointed ('-' :: front) = ('-' :: run, places) := by
      simp only [unpointed] at point ⊢
      rw [List.takeWhile_cons_of_pos (by decide), List.dropWhile_cons_of_pos (by decide)]
      split at point <;> simp_all
    rw [← List.cons_append]
    refine ofText?_ofList ?_ isExponent signedPoint
      (isRun.readInteger?_signed (show _ = (true, _) from rfl)) range
    intro c hc
    rcases List.mem_cons.1 hc with rfl | hc
    · exact ⟨by decide, by decide⟩
    · exact unmarked c hc

/-! ### Reading back -/

/-- What a decimal is read back as: zeros that are written behind its digits become digits, and a
zero has no scale. -/
def reread (d : Decimal) : Decimal :=
  if d.unscaled = 0 then .zero
  else if -trailingZeros ≤ d.scale ∧ d.scale ≤ 0 then
    .ofInt (d.unscaled * (10 ^ (-d.scale).toNat : Nat))
  else d

/-- The form of a decimal changes, its number does not. -/
theorem same_reread (d : Decimal) : d.reread.Same d := by
  obtain ⟨unscaled, scale⟩ := d
  unfold reread Same
  split
  · next zero =>
    simp only at zero
    simp [value, zero, Decimal.zero]
  split
  · next trailing =>
    have none : scale.toNat = 0 := by
      simp only at trailing
      omega
    simp [value, ofInt, none]
  · rfl

lemma reread_of_ne {n : Int} (hn : n ≠ 0) (scale : Int) : reread ⟨n, scale⟩ =
    if -trailingZeros ≤ scale ∧ scale ≤ 0 then ofInt (n * (10 ^ (-scale).toNat : Nat))
    else ⟨n, scale⟩ :=
  if_neg hn

/-- The sign is not looked at. -/
lemma reread_neg (n : Int) (scale : Int) :
    reread ⟨-n, scale⟩ = ⟨-(reread ⟨n, scale⟩).unscaled, (reread ⟨n, scale⟩).scale⟩ := by
  unfold reread
  simp only [Int.neg_eq_zero]
  split
  · rfl
  split
  · rw [Int.neg_mul]
    rfl
  · rfl

/-- Each of the four ways of writing an unscaled part is a numeral. -/
lemma isNumeral_magnitude {n : Nat} (hn : n ≠ 0) (scale : Int) :
    ∃ m : Nat, (reread ⟨n, scale⟩).unscaled = m ∧
      IsNumeral (magnitude n scale) m (reread ⟨n, scale⟩).scale := by
  have run := isRun_write n
  have some : 0 < (Digits.write 10 n).length := List.length_pos_iff.2 run.ne_nil
  rw [reread_of_ne (by simpa using hn), magnitude]
  by_cases small : (Digits.write 10 n).length + leadingZeros < scale
  · have numeral := IsNumeral.mk (pointed_leading run.ne_nil) run
      (.minus (scale - (Digits.write 10 n).length + 1).toNat)
    rw [if_pos small, if_neg (by omega)]
    refine ⟨n, rfl, ?_⟩
    convert numeral using 1
    simp only
    omega
  by_cases large : trailingZeros < -scale
  · have numeral := IsNumeral.mk (.whole _) run (.plus (-scale).toNat)
    rw [if_neg small, if_pos large, if_neg (by omega)]
    refine ⟨n, rfl, ?_⟩
    convert numeral using 1
    simp only
    omega
  rw [if_neg small, if_neg large]
  obtain ⟨padded, digits, isRun⟩ := exists_pointed (run.append_zeros (-scale).toNat) scale.toNat
  have numeral := IsNumeral.of_pointed digits isRun
  by_cases whole : scale ≤ 0
  · rw [if_pos (by omega)]
    refine ⟨n * 10 ^ (-scale).toNat, by simp [ofInt], ?_⟩
    convert numeral using 1
    simp only [ofInt]
    omega
  · have none : (-scale).toNat = 0 := by omega
    rw [if_neg (by omega)]
    refine ⟨n, rfl, ?_⟩
    rw [none, Nat.pow_zero, Nat.mul_one] at numeral
    convert numeral using 1
    · rw [none]
    · simp only
      omega

lemma scaleInRange_reread {d : Decimal} (h : scaleInRange d.scale = true) :
    scaleInRange d.reread.scale = true := by
  unfold reread
  split
  · rfl
  split
  · rfl
  · exact h

/-- A decimal is read from its text. -/
theorem ofText?_text {d : Decimal} (h : scaleInRange d.scale = true) :
    ofText? d.text = some d.reread := by
  obtain ⟨n, scale⟩ := d
  have range := scaleInRange_reread h
  unfold text
  simp only
  split
  · next zero =>
    rw [reread, if_pos zero]
    decide
  split
  · next negative =>
    obtain ⟨m, unscaled, numeral⟩ := isNumeral_magnitude (n := n.natAbs) (by omega) scale
    have magnitude : n = -(n.natAbs : Int) := by omega
    rw [magnitude, reread_neg] at range ⊢
    rw [Int.natAbs_neg, Int.natAbs_natCast, (numeral.ofText?_eq range).2, unscaled]
  · next nonzero positive =>
    obtain ⟨m, unscaled, numeral⟩ := isNumeral_magnitude (n := n.natAbs) (by omega) scale
    have magnitude : n = (n.natAbs : Int) := by omega
    rw [magnitude] at range ⊢
    rw [Int.natAbs_natCast, (numeral.ofText?_eq range).1, ← unscaled]

end VaultIndex.Decimal
