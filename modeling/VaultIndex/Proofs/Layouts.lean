import Mathlib.Tactic.IntervalCases
import VaultIndex.Json.Print
import VaultIndex.Json.Read
import VaultIndex.Proofs.QuotedTexts

/-!
# Layouts

A value as the writers make it is read back from its text in either layout (`readText_compact`,
`readText_pretty`): the layouts differ in blanks only, so that both scan to the tokens of the value,
and the tokens of a value build that value whatever stands around it.
-/

namespace VaultIndex.Json

/-- A value as the writers make it: its numbers are whole, its texts quoted, its containers closed.
-/
inductive Written : Json → Prop where
  | null : Written .null
  | bool (b : Bool) : Written (.bool b)
  | ofNat (n : Nat) : Written (.ofNat n)
  | ofString (s : String) : Written (.ofString s)
  | ofItems {items : List Json} (h : ∀ v ∈ items, Written v) : Written (.ofItems items)
  | ofFields {fields : List (String × Json)} (h : ∀ f ∈ fields, Written f.2) :
      Written (.ofFields fields)

lemma Written.ofList {α : Type} {write : α → Json} {l : List α} (h : ∀ a ∈ l, Written (write a)) :
    Written (.ofList write l) := by
  refine .ofItems fun v hv => ?_
  obtain ⟨a, ha, rfl⟩ := List.mem_map.1 hv
  exact h a ha

lemma Written.ofOption {α : Type} {write : α → Json} {a? : Option α}
    (h : ∀ a ∈ a?, Written (write a)) : Written (.ofOption write a?) := by
  cases a? with
  | none => exact .null
  | some a => exact h a rfl

/-- The members of an object with fields of given names. -/
def membersOf (fields : List (String × Json)) : List (List Char × Json) :=
  fields.map fun f => (quote f.1, f.2)

lemma ofFields_eq (fields : List (String × Json)) :
    ofFields fields = .object (membersOf fields) true := rfl

lemma ofItems_eq (items : List Json) : ofItems items = .array items true := rfl

@[simp] lemma membersOf_nil : membersOf [] = [] := rfl

@[simp] lemma membersOf_cons (f : String × Json) (fields : List (String × Json)) :
    membersOf (f :: fields) = (quote f.1, f.2) :: membersOf fields := rfl

mutual

/-- The tokens of a value. -/
def tokens : Json → List Token
  | .null => [.null]
  | .bool b => [.bool b]
  | .number written => [.number written]
  | .string written => [.string written]
  | .array [] _ => [.openArray, .closeArray]
  | .array (v :: rest) _ => .openArray :: (tokens v ++ furtherItems rest ++ [.closeArray])
  | .object [] _ => [.openObject, .closeObject]
  | .object ((key, v) :: rest) _ =>
    .openObject :: .string key :: .colon :: (tokens v ++ furtherMembers rest ++ [.closeObject])
  | .fault => [.bad]

/-- The tokens of items behind a first one. -/
def furtherItems : List Json → List Token
  | [] => []
  | v :: rest => .comma :: (tokens v ++ furtherItems rest)

/-- The tokens of members behind a first one. -/
def furtherMembers : List (List Char × Json) → List Token
  | [] => []
  | (key, v) :: rest => .comma :: .string key :: .colon :: (tokens v ++ furtherMembers rest)

end

/-! ### Scanning -/

namespace Token

/-- What may stand behind a number: nothing, or a character that no number goes on with. -/
def Stops (cs : List Char) : Prop := ∀ c ∈ cs.head?, c = ',' ∨ c = ']' ∨ c = '}' ∨ c = '\n'

lemma stops_nil : Stops [] := by simp [Stops]

lemma stops_comma (cs : List Char) : Stops (',' :: cs) := by simp [Stops]

lemma stops_closeArray (cs : List Char) : Stops (']' :: cs) := by simp [Stops]

lemma stops_closeObject (cs : List Char) : Stops ('}' :: cs) := by simp [Stops]

lemma stops_lineBreak (level : Nat) (cs : List Char) : Stops (lineBreak level ++ cs) := by
  simp [Stops, lineBreak]

section

variable {cs : List Char}

@[simp] lemma scanFrom_openArray :
    scanFrom .between ('[' :: cs) = .openArray :: scanFrom .between cs := rfl

@[simp] lemma scanFrom_closeArray :
    scanFrom .between (']' :: cs) = .closeArray :: scanFrom .between cs := rfl

@[simp] lemma scanFrom_openObject :
    scanFrom .between ('{' :: cs) = .openObject :: scanFrom .between cs := rfl

@[simp] lemma scanFrom_closeObject :
    scanFrom .between ('}' :: cs) = .closeObject :: scanFrom .between cs := rfl

@[simp] lemma scanFrom_comma : scanFrom .between (',' :: cs) = .comma :: scanFrom .between cs := rfl

@[simp] lemma scanFrom_colon : scanFrom .between (':' :: cs) = .colon :: scanFrom .between cs := rfl

@[simp] lemma scanFrom_blank : scanFrom .between (' ' :: cs) = scanFrom .between cs := rfl

@[simp] lemma scanFrom_quoted (s : String) :
    scanFrom .between ('"' :: (quote s ++ '"' :: cs)) = .string (quote s) :: scanFrom .between cs :=
  scanFrom_quote s cs

@[simp] lemma scanFrom_lineBreak (level : Nat) :
    scanFrom .between (lineBreak level ++ cs) = scanFrom .between cs := by
  have blanks (k : Nat) :
      scanFrom .between (List.replicate k ' ' ++ cs) = scanFrom .between cs := by
    induction k with
    | zero => rfl
    | succ k ih => rw [List.replicate_succ, List.cons_append, scanFrom_blank, ih]
  exact blanks (2 * level)

end

/-- A number that may end here ends where something else begins. -/
lemma scanFrom_number {phase : NumberPhase} (hp : phase = .zero ∨ phase = .whole)
    (seen : List Char) {cs : List Char} (hs : Stops cs) :
    scanFrom (.number phase seen) cs = .number seen.reverse :: scanFrom .between cs := by
  cases cs with
  | nil => rcases hp with rfl | rfl <;> rfl
  | cons c cs =>
    have ends : step (.number phase seen) c =
        (.number seen.reverse :: (start c).1, (start c).2) := by
      rcases hs c rfl with rfl | rfl | rfl | rfl <;> rcases hp with rfl | rfl <;> rfl
    rw [scanFrom, ends]
    rfl

lemma scanFrom_digits {ds : List Char} (h : ∀ c ∈ ds, c.isDigit = true) (seen cs : List Char) :
    scanFrom (.number .whole seen) (ds ++ cs) =
      scanFrom (.number .whole (ds.reverse ++ seen)) cs := by
  induction ds generalizing seen with
  | nil => rfl
  | cons d ds ih =>
    obtain ⟨hd, h⟩ := List.forall_mem_cons.1 h
    rw [List.reverse_cons, List.append_assoc, ← List.singleton_append, ← ih h]
    simp [scanFrom, step, NumberPhase.next?, hd]

lemma start_digitChar {d : Nat} (hd : 0 < d) (h : d < 10) :
    start d.digitChar = ([], .number .whole [d.digitChar]) := by
  interval_cases d <;> rfl

/-- A written number is one token. -/
lemma scanFrom_write (n : Nat) {cs : List Char} (hs : Stops cs) :
    scanFrom .between (Digits.write 10 n ++ cs) =
      .number (Digits.write 10 n) :: scanFrom .between cs := by
  rcases Nat.eq_zero_or_pos n with rfl | hn
  · exact scanFrom_number (.inl rfl) ['0'] hs
  · obtain ⟨d, rest, hd, h10, heq⟩ := Digits.exists_write_eq_cons (by decide : 1 < 10) hn
    have digits : ∀ c ∈ rest, c.isDigit = true := by
      intro c hc
      apply Digits.isDigit_of_mem_write (n := n)
      rw [heq]
      exact List.mem_cons_of_mem _ hc
    rw [heq, List.cons_append, scanFrom, step, start_digitChar hd h10, List.nil_append,
      scanFrom_digits digits, scanFrom_number (.inr rfl) _ hs]
    simp

end Token

open Token (scanFrom Stops)

/-! ### Compact layout -/

/-- What a compact text of items scans to when those of the items scan to their tokens. -/
lemma scanFrom_compactItems {v : Json} {items : List Json}
    (each : ∀ w ∈ v :: items, ∀ rest, Stops rest →
      scanFrom .between (compactChars w ++ rest) = tokens w ++ scanFrom .between rest)
    {rest : List Char} (hr : Stops rest) :
    scanFrom .between (compactItems (v :: items) ++ rest) =
      tokens v ++ furtherItems items ++ scanFrom .between rest := by
  induction items generalizing v with
  | nil =>
    rw [compactItems, furtherItems, List.append_nil]
    exact each v List.mem_cons_self rest hr
  | cons w items ih =>
    obtain ⟨hv, each⟩ := List.forall_mem_cons.1 each
    simp only [compactItems, furtherItems, List.append_assoc, List.cons_append]
    rw [hv _ (Token.stops_comma _), Token.scanFrom_comma, ih each, List.append_assoc]

lemma scanFrom_compactMembers {f : String × Json} {fields : List (String × Json)}
    (each : ∀ g ∈ f :: fields, ∀ rest, Stops rest →
      scanFrom .between (compactChars g.2 ++ rest) = tokens g.2 ++ scanFrom .between rest)
    {rest : List Char} (hr : Stops rest) :
    scanFrom .between (compactMembers ((quote f.1, f.2) :: membersOf fields) ++ rest) =
      .string (quote f.1) :: .colon ::
        (tokens f.2 ++ furtherMembers (membersOf fields) ++ scanFrom .between rest) := by
  induction fields generalizing f with
  | nil =>
    simp only [membersOf_nil, compactMembers, furtherMembers, List.append_assoc,
      List.cons_append, List.append_nil, Token.scanFrom_quoted, Token.scanFrom_colon]
    rw [each f List.mem_cons_self rest hr]
  | cons g fields ih =>
    obtain ⟨hf, each⟩ := List.forall_mem_cons.1 each
    simp only [membersOf_cons, compactMembers, furtherMembers, List.append_assoc, List.cons_append,
      Token.scanFrom_quoted, Token.scanFrom_colon]
    rw [hf _ (Token.stops_comma _), Token.scanFrom_comma, ih each, List.append_assoc]

theorem Written.scanFrom_compactChars {v : Json} (h : Written v) {rest : List Char}
    (hr : Stops rest) :
    scanFrom .between (compactChars v ++ rest) = tokens v ++ scanFrom .between rest := by
  induction h generalizing rest with
  | null => rfl
  | bool b => cases b <;> rfl
  | ofNat n => exact Token.scanFrom_write n hr
  | ofString s => simp [Json.ofString, compactChars, tokens]
  | @ofItems items h ih =>
    rw [ofItems_eq]
    cases items with
    | nil => rfl
    | cons v items =>
      simp only [compactChars, tokens, List.cons_append, List.append_assoc,
        Token.scanFrom_openArray]
      rw [scanFrom_compactItems (fun w hw _ => ih w hw) (Token.stops_closeArray _)]
      simp
  | @ofFields fields h ih =>
    rw [ofFields_eq]
    cases fields with
    | nil => rfl
    | cons f fields =>
      simp only [membersOf_cons, compactChars, tokens, List.cons_append, List.append_assoc,
        Token.scanFrom_openObject]
      rw [scanFrom_compactMembers (fun g hg _ => ih g hg) (Token.stops_closeObject _)]
      simp

/-! ### Pretty layout -/

lemma scanFrom_prettyItems (level : Nat) {items : List Json}
    (each : ∀ w ∈ items, ∀ rest, Stops rest →
      scanFrom .between (prettyChars level w ++ rest) = tokens w ++ scanFrom .between rest)
    {rest : List Char} (hr : Stops rest) :
    Stops (prettyItems level items ++ rest) ∧
    scanFrom .between (prettyItems level items ++ rest) =
      furtherItems items ++ scanFrom .between rest := by
  induction items with
  | nil => exact ⟨hr, rfl⟩
  | cons w items ih =>
    obtain ⟨hw, each⟩ := List.forall_mem_cons.1 each
    obtain ⟨stops, later⟩ := ih each
    simp only [prettyItems, furtherItems, List.append_assoc, List.cons_append]
    refine ⟨Token.stops_comma _, ?_⟩
    rw [Token.scanFrom_comma, Token.scanFrom_lineBreak, hw _ stops, later]

lemma scanFrom_prettyMembers (level : Nat) {fields : List (String × Json)}
    (each : ∀ g ∈ fields, ∀ rest, Stops rest →
      scanFrom .between (prettyChars level g.2 ++ rest) = tokens g.2 ++ scanFrom .between rest)
    {rest : List Char} (hr : Stops rest) :
    Stops (prettyMembers level (membersOf fields) ++ rest) ∧
    scanFrom .between (prettyMembers level (membersOf fields) ++ rest) =
      furtherMembers (membersOf fields) ++ scanFrom .between rest := by
  induction fields with
  | nil => exact ⟨hr, rfl⟩
  | cons g fields ih =>
    obtain ⟨hg, each⟩ := List.forall_mem_cons.1 each
    obtain ⟨stops, later⟩ := ih each
    simp only [membersOf_cons, prettyMembers, furtherMembers, List.append_assoc, List.cons_append]
    refine ⟨Token.stops_comma _, ?_⟩
    rw [Token.scanFrom_comma, Token.scanFrom_lineBreak, Token.scanFrom_quoted,
      Token.scanFrom_colon, Token.scanFrom_blank, hg _ stops, later]

theorem Written.scanFrom_prettyChars {v : Json} (h : Written v) {level : Nat} {rest : List Char}
    (hr : Stops rest) :
    scanFrom .between (prettyChars level v ++ rest) = tokens v ++ scanFrom .between rest := by
  induction h generalizing level rest with
  | null => rfl
  | bool b => cases b <;> rfl
  | ofNat n => exact Token.scanFrom_write n hr
  | ofString s => exact (Written.ofString s).scanFrom_compactChars hr
  | @ofItems items h ih =>
    rw [ofItems_eq]
    cases items with
    | nil => rfl
    | cons v items =>
      obtain ⟨hv, ih⟩ := List.forall_mem_cons.1 ih
      obtain ⟨stops, later⟩ := scanFrom_prettyItems (level + 1)
        (fun w hw _ => ih w hw) (Token.stops_lineBreak level (']' :: rest))
      simp only [prettyChars, tokens, List.cons_append, List.append_assoc, List.nil_append,
        Token.scanFrom_openArray, Token.scanFrom_lineBreak]
      rw [hv stops, later, Token.scanFrom_lineBreak, Token.scanFrom_closeArray]
  | @ofFields fields h ih =>
    rw [ofFields_eq]
    cases fields with
    | nil => rfl
    | cons f fields =>
      obtain ⟨hf, ih⟩ := List.forall_mem_cons.1 ih
      obtain ⟨stops, later⟩ := scanFrom_prettyMembers (level + 1)
        (fun g hg _ => ih g hg) (Token.stops_lineBreak level ('}' :: rest))
      simp only [membersOf_cons, prettyChars, tokens, List.cons_append, List.append_assoc,
        List.nil_append, Token.scanFrom_openObject, Token.scanFrom_lineBreak,
        Token.scanFrom_quoted, Token.scanFrom_colon, Token.scanFrom_blank]
      rw [hf stops, later, Token.scanFrom_lineBreak, Token.scanFrom_closeObject]

/-! ### Building -/

section Building

variable {stack : List Frame} {rest : List Token}

lemma build_furtherItems {items : List Json} (seen : List Json)
    (each : ∀ w ∈ items, ∀ stack rest, build stack .value (tokens w ++ rest) =
      build (deliver w stack).1 (deliver w stack).2 rest) :
    build (.array seen :: stack) .more (furtherItems items ++ .closeArray :: rest) =
      build (deliver (.array (seen.reverse ++ items) true) stack).1
        (deliver (.array (seen.reverse ++ items) true) stack).2 rest := by
  induction items generalizing seen with
  | nil =>
    rw [List.append_nil]
    rfl
  | cons w items ih =>
    obtain ⟨hw, each⟩ := List.forall_mem_cons.1 each
    have comma (ts : List Token) : build (.array seen :: stack) .more (.comma :: ts) =
        build (.array seen :: stack) .value ts := rfl
    rw [furtherItems, List.cons_append, List.append_assoc, comma, hw]
    refine (ih (w :: seen) each).trans ?_
    rw [List.reverse_cons, List.append_assoc, List.singleton_append]

lemma build_furtherMembers {members : List (List Char × Json)} (seen : List (List Char × Json))
    (each : ∀ m ∈ members, ∀ stack rest, build stack .value (tokens m.2 ++ rest) =
      build (deliver m.2 stack).1 (deliver m.2 stack).2 rest) :
    build stack (.moreMembers seen) (furtherMembers members ++ .closeObject :: rest) =
      build (deliver (.object (seen.reverse ++ members) true) stack).1
        (deliver (.object (seen.reverse ++ members) true) stack).2 rest := by
  induction members generalizing seen with
  | nil =>
    rw [List.append_nil]
    rfl
  | cons m members ih =>
    obtain ⟨key, v⟩ := m
    obtain ⟨hv, each⟩ := List.forall_mem_cons.1 each
    have keyed (ts : List Token) :
        build stack (.moreMembers seen) (.comma :: .string key :: .colon :: ts) =
          build (.object seen key :: stack) .value ts := rfl
    rw [furtherMembers, List.cons_append, List.cons_append, List.cons_append, List.append_assoc,
      keyed, hv]
    refine (ih ((key, v) :: seen) each).trans ?_
    rw [List.reverse_cons, List.append_assoc, List.singleton_append]

/-- The tokens of a value put it into the innermost container. -/
theorem Written.build_tokens {v : Json} (h : Written v) {expect : Expect}
    (he : expect = .value ∨ expect = .itemOrClose) (stack : List Frame) (rest : List Token) :
    build stack expect (tokens v ++ rest) = build (deliver v stack).1 (deliver v stack).2 rest := by
  induction h generalizing expect stack rest with
  | null => rcases he with rfl | rfl <;> rfl
  | bool b => rcases he with rfl | rfl <;> rfl
  | ofNat n => rcases he with rfl | rfl <;> rfl
  | ofString s => rcases he with rfl | rfl <;> rfl
  | @ofItems items h ih =>
    rw [ofItems_eq]
    cases items with
    | nil => rcases he with rfl | rfl <;> rfl
    | cons v items =>
      have opened (ts : List Token) : build stack expect (.openArray :: ts) =
          build (.array [] :: stack) .itemOrClose ts := by
        rcases he with rfl | rfl <;> rfl
      obtain ⟨hv, ih⟩ := List.forall_mem_cons.1 ih
      rw [tokens, List.cons_append, List.append_assoc, List.append_assoc, opened, hv (.inr rfl)]
      exact build_furtherItems [v] fun w hw => ih w hw (.inl rfl)
  | @ofFields fields h ih =>
    rw [ofFields_eq]
    cases fields with
    | nil => rcases he with rfl | rfl <;> rfl
    | cons f fields =>
      have opened (ts : List Token) :
          build stack expect (.openObject :: .string (quote f.1) :: .colon :: ts) =
            build (.object [] (quote f.1) :: stack) .value ts := by
        rcases he with rfl | rfl <;> rfl
      obtain ⟨hf, ih⟩ := List.forall_mem_cons.1 ih
      rw [membersOf_cons, tokens, List.cons_append, List.cons_append, List.cons_append,
        List.append_assoc, List.append_assoc, opened, hf (.inl rfl)]
      refine build_furtherMembers [(quote f.1, f.2)] fun m hm => ?_
      obtain ⟨g, hg, rfl⟩ := List.mem_map.1 hm
      exact ih g hg (.inl rfl)

end Building

/-! ### Texts -/

/-- A text that scans to the tokens of a value holds this value and nothing else. -/
lemma Written.parse_ofList {v : Json} (h : Written v) {cs : List Char}
    (hs : scanFrom .between (cs ++ []) = tokens v ++ scanFrom .between []) :
    parse (String.ofList cs) = ⟨v, true⟩ := by
  rw [parse, Token.scan, String.toList_ofList, ← List.append_nil cs, hs,
    h.build_tokens (.inl rfl)]
  rfl

theorem Written.parse_compact {v : Json} (h : Written v) : parse v.compact = ⟨v, true⟩ :=
  h.parse_ofList (h.scanFrom_compactChars Token.stops_nil)

theorem Written.parse_pretty {v : Json} (h : Written v) : parse v.pretty = ⟨v, true⟩ :=
  h.parse_ofList (h.scanFrom_prettyChars Token.stops_nil)

/-- What is read from a written text, in either layout, is what its value is read as. -/
theorem Written.readText_eq {α : Type} {v : Json} (h : Written v) (reader : Reader α) :
    readText reader v.compact = reader v ∧ readText reader v.pretty = reader v := by
  have whole (read : Except ReadError α) : (do
      let a ← read
      if true = true then return a else throw .malformed : Except ReadError α) = read := by
    cases read <;> rfl
  constructor
  · rw [readText, h.parse_compact]
    exact whole _
  · rw [readText, h.parse_pretty]
    exact whole _

end VaultIndex.Json
