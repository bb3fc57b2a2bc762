import VaultIndex.Json.Record
import VaultIndex.Proofs.Layouts
import VaultIndex.Proofs.Tables

/-!
# Reading what was written

Each reader gives back what the writer beside it wrote: scalars, lists and tables whose items are
read back, and records whose fields stand in the order of their declaration
(`Record.Reads.reader_eq`).
-/

namespace VaultIndex.Json

variable {α β κ : Type}

/-! ### Scalars -/

lemma natural_ofNat (n : Nat) : natural (.ofNat n) = .ok n := by
  rw [ofNat, natural, Digits.read?_write (by decide) (by decide)]
  rfl

lemma word64_ofWord64 (n : UInt64) : word64 (.ofWord64 n) = .ok n := by
  have fits : n.toNat < UInt64.size := n.toNat_lt
  have run : word64 (.ofWord64 n) =
      if n.toNat < UInt64.size then .ok (UInt64.ofNat n.toNat) else .error .malformed := by
    rw [word64, ofWord64, natural_ofNat]
    rfl
  rw [run, if_pos fits, UInt64.ofNat_toNat]

lemma text_ofString (s : String) : text (.ofString s) = .ok s := by
  rw [ofString, text, unquote?_quote]
  rfl

lemma textual_ofString {read? : String → Option α} {s : String} {a : α} (h : read? s = some a) :
    textual read? (.ofString s) = .ok a := by
  have run : textual read? (.ofString s) = orMalformed (read? s) := by
    rw [textual, text_ofString]
    rfl
  rw [run, h]
  rfl

lemma optional_ofOption {item : Reader β} {write : α → Json} {f : α → β} {a? : Option α}
    (h : ∀ a ∈ a?, write a ≠ .null ∧ item (write a) = .ok (f a)) :
    optional item (.ofOption write a?) = .ok (a?.map f) := by
  cases a? with
  | none => rfl
  | some a =>
    obtain ⟨some, read⟩ := h a rfl
    rw [ofOption, optional.eq_2 _ _ some, read]
    rfl

lemma variant_ofString {variants : List (String × α)} {name : String} {a : α}
    (h : variants.find? (·.1 = name) = some (name, a)) :
    variant variants (.ofString name) = .ok a := by
  have run : variant variants (.ofString name) = named variants name := by
    rw [ofString, variant, unquote?_quote]
    rfl
  rw [run, named, h]

/-! ### Containers -/

lemma mapM_map_eq_ok {γ ε : Type} {write : α → β} {read : β → Except ε γ} {f : α → γ} {l : List α}
    (h : ∀ a ∈ l, read (write a) = .ok (f a)) : (l.map write).mapM read = .ok (l.map f) := by
  induction l with
  | nil => rfl
  | cons a rest ih =>
    obtain ⟨ha, h⟩ := List.forall_mem_cons.1 h
    rw [List.map_cons, List.mapM_cons, ha, ih h]
    rfl

lemma list_ofList {item : Reader β} {write : α → Json} {f : α → β} {l : List α}
    (h : ∀ a ∈ l, item (write a) = .ok (f a)) : list item (.ofList write l) = .ok (l.map f) := by
  rw [ofList, ofItems, list, mapM_map_eq_ok h]
  rfl

lemma table_ofFields [Numbered κ] {ε : Type} {key? : List Char → Option κ} {item : Reader β}
    {key : ε → String} {write : ε → Json} {k : ε → κ} {f : ε → β} {entries : List ε}
    (h : ∀ e ∈ entries, key? (quote (key e)) = some (k e) ∧ item (write e) = .ok (f e)) :
    table key? item (.ofFields (entries.map fun e => (key e, write e))) =
      .ok (Table.ofList (entries.map fun e => (k e, f e))) := by
  have members : (membersOf (entries.map fun e => (key e, write e))).mapM (entry key? item) =
      .ok (entries.map fun e => (k e, f e)) := by
    rw [membersOf, List.map_map]
    apply mapM_map_eq_ok
    intro e he
    obtain ⟨keyed, read⟩ := h e he
    simp only [Function.comp_apply, entry, keyed, read]
    rfl
  rw [ofFields_eq, table, members]
  rfl

/-- A table whose values are read back is read back from its entries, in whatever order they come.
-/
lemma table_ofFields_of_perm [Numbered κ] [DecidableEq κ] {key? : List Char → Option κ}
    {item : Reader α} {key : κ → String} {write : α → Json} {t : Table κ α}
    {entries : List (κ × α)} (keyed : ∀ k, key? (quote (key k)) = some k)
    (h : ∀ e ∈ entries, item (write e.2) = .ok e.2) (perm : entries.Perm t.entries) :
    table key? item (.ofFields (entries.map fun e => (key e.1, write e.2))) = .ok t := by
  have read : table key? item (.ofFields (entries.map fun e => (key e.1, write e.2))) =
      .ok (Table.ofList (entries.map fun e => (e.1, e.2))) :=
    table_ofFields fun e he => ⟨keyed e.1, h e he⟩
  rw [read, List.map_id', Table.ofList_of_perm perm]

/-! ### Records -/

namespace Record

/-- Fields in the order of their declaration, from whose values a record is read as `a`. -/
inductive Reads : {α : Type} → Record α → List (String × Json) → α → Prop where
  | make {α : Type} (a : α) : Reads (.make a) [] a
  | field {α β : Type} {r : Record (α → β)} {fields : List (String × Json)} {f : α → β}
      {name : String} {reader : Reader α} {otherwise : Problem → Checked α} {v : Json} {a : α}
      (earlier : Reads r fields f) (read : reader v = .ok a) :
      Reads (r.field name reader otherwise) (fields ++ [(name, v)]) (f a)

lemma find?_append_cons {fields : List (String × Json)} {name : String}
    (fresh : name ∉ fields.map (·.1)) (v : Json) (more : List (String × Json))
    (absent : String → Problem) :
    (Fields.mk (fields ++ (name, v) :: more) absent).find? name = some (fields.length, v) := by
  have earlier : (fields.zipIdx 0).find? (·.1.1 = name) = none := by
    rw [List.find?_eq_none]
    rintro ⟨f, i⟩ hf
    have other : f.1 ≠ name := by
      rintro rfl
      exact fresh (List.mem_map_of_mem (List.fst_mem_of_mem_zipIdx hf))
    simpa using other
  rw [Fields.find?, List.zipIdx_append, List.find?_append, earlier, Option.none_or,
    List.zipIdx_cons, List.find?_cons_of_pos (by simp), Option.map_some, Nat.zero_add]

namespace Reads

variable {r : Record α} {fields : List (String × Json)} {a : α}

lemma required {r : Record (α → β)} {f : α → β} {name : String} {reader : Reader α} {v : Json}
    (earlier : Reads r fields f) (read : reader v = .ok a) :
    Reads (r.required name reader) (fields ++ [(name, v)]) (f a) :=
  earlier.field read

lemma withDefault {r : Record (α → β)} {f : α → β} {name : String} {reader : Reader α} {v : Json}
    {default : α} (earlier : Reads r fields f) (read : reader v = .ok a) :
    Reads (r.withDefault name reader default) (fields ++ [(name, v)]) (f a) :=
  earlier.field read

lemma names_eq (h : r.Reads fields a) : fields.map (·.1) = r.names := by
  induction h with
  | make => rfl
  | field earlier read ih => rw [List.map_append, ih]; rfl

/-- Where no two fields have one name, each is found, whatever stands behind them. -/
lemma read_eq (h : r.Reads fields a) (distinct : r.names.Nodup) (more : List (String × Json))
    (absent : String → Problem) : r.read ⟨fields ++ more, absent⟩ = .ok a := by
  induction h generalizing more with
  | make => rfl
  | @field α β r fields f name reader otherwise v a earlier read ih =>
    obtain ⟨distinct, -, fresh⟩ := List.nodup_append.1 distinct
    have fresh : name ∉ fields.map (·.1) := by
      rw [earlier.names_eq]
      intro hmem
      exact fresh name hmem name List.mem_cons_self rfl
    have found := find?_append_cons fresh v more absent
    rw [List.append_assoc, List.singleton_append, Record.field]
    simp only [ih distinct, found, read]
    rfl

lemma problem?_eq_none {names seen : List String} (position : Nat)
    {fields : List (String × Json)} (known : ∀ f ∈ fields, f.1 ∈ names)
    (distinct : (fields.map (·.1)).Nodup) (fresh : ∀ f ∈ fields, f.1 ∉ seen) :
    problem? names true position (membersOf fields) seen = none := by
  induction fields generalizing position seen with
  | nil => rfl
  | cons f fields ih =>
    obtain ⟨hf, known⟩ := List.forall_mem_cons.1 known
    obtain ⟨hs, fresh⟩ := List.forall_mem_cons.1 fresh
    obtain ⟨hd, distinct⟩ := List.nodup_cons.1 distinct
    rw [membersOf_cons, problem?, unquote?_quote]
    simp only [List.contains_iff_mem.2 hf, if_true, mt List.contains_iff_mem.1 hs,
      Bool.false_eq_true, if_false]
    apply ih _ known distinct
    intro g hg hmem
    rcases List.mem_cons.1 hmem with heq | hmem
    · exact hd (List.mem_map.2 ⟨g, hg, heq⟩)
    · exact fresh g hg hmem

lemma unquoted_membersOf (fields : List (String × Json)) :
    unquoted (membersOf fields) = fields := by
  have same (f : String × Json) : ((unquote? (quote f.1)).getD "", f.2) = f := by
    rw [unquote?_quote, Option.getD_some]
  rw [unquoted, membersOf, List.map_map]
  exact (List.map_congr_left fun f _ => same f).trans (List.map_id fields)

/-- A record is read back from its fields in the order of their declaration. -/
theorem reader_eq (h : r.Reads fields a) (distinct : r.names.Nodup) :
    r.reader (.ofFields fields) = .ok a := by
  have sound : problem? r.names true 0 (membersOf fields) [] = none := by
    apply problem?_eq_none
    · intro f hf
      exact h.names_eq ▸ List.mem_map_of_mem hf
    · exact h.names_eq ▸ distinct
    · simp
  have read := h.read_eq distinct [] fun name =>
    ⟨(membersOf fields).length + 1, .missingField name⟩
  rw [List.append_nil] at read
  rw [ofFields_eq, Record.reader, ofObject, sound, unquoted_membersOf, read]
  rfl

end Reads

end Record

end VaultIndex.Json
