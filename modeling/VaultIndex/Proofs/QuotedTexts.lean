import VaultIndex.Json.Quoted
import VaultIndex.Json.Token
import VaultIndex.Proofs.DigitRuns

/-!
# Quoted texts

What is written between quotes reads back as the text that was written (`unquote?_quote`), and the
scanner takes it for one token (`Token.scanFrom_quote`).
-/

namespace VaultIndex.Json

/-! ### Reading back -/

lemma unquoteChars?_plain {c : Char} (h : c ≠ '\\') (rest : List Char) :
    unquoteChars? (c :: rest) = (unquoteChars? rest).map (c :: ·) := by
  rw [unquoteChars?.eq_5 _ _ (by simp [h]) (by simp [h]) (by simp [h]), Option.map_eq_bind]
  rfl

lemma unquoteChars?_escape {c d : Char} (h : escaped? c = some d) (rest : List Char) :
    unquoteChars? ('\\' :: c :: rest) = (unquoteChars? rest).map (d :: ·) := by
  have apart : c ≠ 'u' := by
    rintro rfl
    cases h
  rw [unquoteChars?.eq_4 _ _ (by simp [apart]) (by simp [apart]), h, Option.map_eq_bind]
  rfl

lemma exists_writePadded_four {n : Nat} (h : n < 0x10000) :
    ∃ a b c d, Digits.writePadded 16 4 n = [a, b, c, d] := by
  have four : (Digits.writePadded 16 4 n).length = 4 := Digits.length_writePadded (by omega) h
  match Digits.writePadded 16 4 n, four with
  | [a, b, c, d], _ => exact ⟨a, b, c, d, rfl⟩

/-- An escaped unit that belongs to no pair is a character by itself, whatever stands behind it. -/
lemma unquoteChars?_unicodeEscape {n : Nat} (h : n < 0xD800) (rest : List Char) :
    unquoteChars? (unicodeEscape n ++ rest) = (unquoteChars? rest).map (Char.ofNat n :: ·) := by
  obtain ⟨a, b, c, d, digits⟩ := exists_writePadded_four (show n < 0x10000 by omega)
  have read := Digits.read?_writePadded (show 1 < 16 by omega) (by omega) 4 n
  rw [digits] at read
  have unpaired : isHighSurrogate n = false ∧ isLowSurrogate n = false := by
    simp only [isHighSurrogate, isLowSurrogate, Bool.and_eq_false_iff, decide_eq_false_iff_not]
    omega
  rw [unicodeEscape, digits]
  simp only [List.cons_append, List.nil_append]
  -- two escapes in a row are looked at together
  by_cases escapes : ∃ e f g h tail, rest = '\\' :: 'u' :: e :: f :: g :: h :: tail
  · obtain ⟨e, f, g, h, tail, rfl⟩ := escapes
    rw [unquoteChars?.eq_2, read, Option.map_eq_bind]
    simp [unpaired]
  · rw [unquoteChars?.eq_3, read, Option.map_eq_bind]
    · simp [unpaired]
    · intro e f g h tail heq
      exact escapes ⟨e, f, g, h, tail, heq⟩

/-- How a character is quoted: by a letter, by its number, or not at all. -/
lemma quoteChar_cases (c : Char) :
    (∃ letter, escaped? letter = some c ∧ quoteChar c = ['\\', letter]) ∨
    (c.toNat < 0x20 ∧ quoteChar c = unicodeEscape c.toNat) ∨
    (c ≠ '"' ∧ c ≠ '\\' ∧ 0x20 ≤ c.toNat ∧ quoteChar c = [c]) := by
  unfold quoteChar
  split
  · next h => exact .inl ⟨'"', by rw [h]; rfl, rfl⟩
  split
  · next h => exact .inl ⟨'\\', by rw [h]; rfl, rfl⟩
  split
  · next h => exact .inl ⟨'b', by rw [h]; rfl, rfl⟩
  split
  · next h => exact .inl ⟨'t', by rw [h]; rfl, rfl⟩
  split
  · next h => exact .inl ⟨'n', by rw [h]; rfl, rfl⟩
  split
  · next h => exact .inl ⟨'f', by rw [h]; rfl, rfl⟩
  split
  · next h => exact .inl ⟨'r', by rw [h]; rfl, rfl⟩
  split
  · next control => exact .inr (.inl ⟨control, rfl⟩)
  · next quote slash _ _ _ _ _ printable =>
    exact .inr (.inr ⟨quote, slash, Nat.le_of_not_lt printable, rfl⟩)

lemma unquoteChars?_quoteChar (c : Char) (rest : List Char) :
    unquoteChars? (quoteChar c ++ rest) = (unquoteChars? rest).map (c :: ·) := by
  rcases quoteChar_cases c with ⟨letter, hc, heq⟩ | ⟨hc, heq⟩ | ⟨-, hc, -, heq⟩
  · rw [heq]
    exact unquoteChars?_escape hc rest
  · rw [heq, unquoteChars?_unicodeEscape (by omega), Char.ofNat_toNat]
  · rw [heq]
    exact unquoteChars?_plain hc rest

theorem unquote?_quote (s : String) : unquote? (quote s) = some s := by
  have chars (cs : List Char) : unquoteChars? (cs.flatMap quoteChar) = some cs := by
    induction cs with
    | nil => rfl
    | cons c rest ih => rw [List.flatMap_cons, unquoteChars?_quoteChar, ih, Option.map_some]
  rw [unquote?, quote, chars, Option.map_some, String.ofList_toList]

/-! ### Scanning -/

namespace Token

lemma isHexDigit_digitChar : ∀ d < 16, isHexDigit d.digitChar = true := by decide

lemma scanFrom_hex {ds : List Char} (hd : ds ≠ []) (hex : ∀ c ∈ ds, isHexDigit c = true)
    (seen rest : List Char) :
    scanFrom (.string (.hex ds.length) seen) (ds ++ rest) =
      scanFrom (.string .plain (ds.reverse ++ seen)) rest := by
  induction ds generalizing seen with
  | nil => exact absurd rfl hd
  | cons d ds ih =>
    obtain ⟨hd, hex⟩ := List.forall_mem_cons.1 hex
    rw [List.cons_append, scanFrom]
    simp only [step, stepString, hd, if_true, List.nil_append]
    cases ds with
    | nil => rfl
    | cons e ds =>
      rw [if_neg (by simp), List.reverse_cons, List.append_assoc]
      exact ih (List.cons_ne_nil _ _) hex (d :: seen)

lemma stepString_backslash {letter c : Char} (h : escaped? letter = some c) (seen : List Char) :
    stepString .backslash seen letter = ([], .string .plain (letter :: seen)) := by
  unfold escaped? at h
  split at h
  all_goals first | rfl | cases h

lemma scanFrom_quoteChar (c : Char) (seen rest : List Char) :
    scanFrom (.string .plain seen) (quoteChar c ++ rest) =
      scanFrom (.string .plain ((quoteChar c).reverse ++ seen)) rest := by
  rcases quoteChar_cases c with ⟨letter, hc, heq⟩ | ⟨hc, heq⟩ | ⟨quote, slash, hc, heq⟩
  · have opens : stepString .plain seen '\\' = ([], .string .backslash ('\\' :: seen)) := rfl
    rw [heq]
    simp only [List.cons_append, List.nil_append, scanFrom, step, opens, stepString_backslash hc]
    rfl
  · obtain ⟨h₁, h₂, h₃, h₄, digits⟩ := exists_writePadded_four (show c.toNat < 0x10000 by omega)
    have hex : ∀ x ∈ Digits.writePadded 16 4 c.toNat, isHexDigit x = true := by
      intro x hx
      obtain ⟨d, hd, rfl⟩ := Digits.exists_digitChar_of_mem_writePadded (by omega) hx
      exact isHexDigit_digitChar d hd
    rw [digits] at hex
    have run := scanFrom_hex (List.cons_ne_nil _ _) hex ('u' :: '\\' :: seen) rest
    rw [heq, unicodeEscape, digits]
    simpa [scanFrom, step, stepString] using run
  · rw [heq]
    simp [scanFrom, step, stepString, quote, slash, Nat.not_lt.2 hc]

theorem scanFrom_quote (s : String) (rest : List Char) :
    scanFrom (.string .plain []) (quote s ++ '"' :: rest) =
      .string (quote s) :: scanFrom .between rest := by
  have chars (cs seen : List Char) :
      scanFrom (.string .plain seen) (cs.flatMap quoteChar ++ '"' :: rest) =
        .string (seen.reverse ++ cs.flatMap quoteChar) :: scanFrom .between rest := by
    induction cs generalizing seen with
    | nil => simp [scanFrom, step, stepString]
    | cons c cs ih =>
      rw [List.flatMap_cons, List.append_assoc, scanFrom_quoteChar, ih, List.reverse_append,
        List.reverse_reverse, List.append_assoc]
  exact chars s.toList []

end Token

end VaultIndex.Json
