import VaultIndex.Evm.Codec
import VaultIndex.Proofs.Readings

/-!
# Texts of words

Addresses, hashes, amounts and numbers of blocks are read back from their texts, in JSON and as keys
of tables.
-/

namespace VaultIndex

/-! ### Hexadecimal words -/

lemma Hex.readWord?_writeWord {width n : Nat} (hw : 0 < width) (h : n < 16 ^ width) :
    Hex.readWord? width (Hex.writeWord width n) = some n := by
  simp only [readWord?, writeWord, String.toList_ofList, unmarked]
  rw [if_pos (Digits.length_writePadded hw h), Digits.read?_writePadded (by decide) (by decide)]

lemma Quantity.read?_write {width n : Nat} (h : n < 2 ^ width) :
    Quantity.read? width (Quantity.write n) = some (BitVec.ofNat width n) := by
  have digits : (Digits.write 16 n).filter (· ≠ '_') = Digits.write 16 n := by
    rw [List.filter_eq_self]
    intro c hc
    obtain ⟨d, hd, rfl⟩ := Digits.exists_digitChar_of_mem_write (by decide) hc
    exact decide_eq_true (Nat.digitChar_ne '_' rfl)
  rw [Quantity.read?, Quantity.write, String.toList_ofList, Quantity.split]
  simp only [digits, Digits.read?_write (show 1 < 16 by decide) (by decide), Option.bind_eq_bind,
    Option.bind_some]
  rw [if_pos (by rw [BitVec.toNat_ofNat, Nat.mod_eq_of_lt h])]

namespace Address

lemma ofText?_text (a : Address) : ofText? a.text = some a := by
  rw [ofText?, text, Hex.readWord?_writeWord (by decide) a.word.isLt, Option.map_some,
    BitVec.ofNat_toNat, BitVec.setWidth_eq]

lemma written_json (a : Address) : a.json.Written := .ofString _

lemma reader_json (a : Address) : reader a.json = .ok a := Json.textual_ofString a.ofText?_text

end Address

namespace Hash

lemma ofText?_text (h : Hash) : ofText? h.text = some h := by
  rw [ofText?, text, Hex.readWord?_writeWord (by decide) h.word.isLt, Option.map_some,
    BitVec.ofNat_toNat, BitVec.setWidth_eq]

lemma written_json (h : Hash) : h.json.Written := .ofString _

lemma reader_json (h : Hash) : reader h.json = .ok h := Json.textual_ofString h.ofText?_text

end Hash

namespace U256

lemma ofText?_text (n : U256) : ofText? (text n) = some n := by
  rw [ofText?, text, Quantity.read?_write n.isLt, BitVec.ofNat_toNat, BitVec.setWidth_eq]

lemma written_json (n : U256) : (json n).Written := .ofString _

lemma reader_json (n : U256) : reader (json n) = .ok n := Json.textual_ofString (ofText?_text n)

end U256

/-! ### Keys -/

namespace Json

lemma quote_ofList_of_isDigit {ds : List Char} (h : ∀ c ∈ ds, c.isDigit = true) :
    quote (String.ofList ds) = ds := by
  have plain : ∀ c ∈ ds, quoteChar c = [c] := by
    intro c hc
    have digit := h c hc
    rcases quoteChar_cases c with ⟨letter, escape, -⟩ | ⟨control, -⟩ | ⟨-, -, -, heq⟩
    · unfold escaped? at escape
      split at escape
      all_goals cases escape <;> cases digit
    · simp only [Char.isDigit, Bool.and_eq_true, decide_eq_true_eq] at digit
      have above : 48 ≤ c.toNat := digit.1
      exact absurd control (by omega)
    · exact heq
  rw [quote, String.toList_ofList, List.flatMap_congr plain, List.flatMap_singleton']

lemma word64Key?_quote (n : UInt64) : word64Key? (quote (word64Key n)) = some n := by
  have digits : quote (word64Key n) = Digits.write 10 n.toNat :=
    quote_ofList_of_isDigit fun _ => Digits.isDigit_of_mem_write
  have fits : n.toNat < UInt64.size := n.toNat_lt
  simp [word64Key?, digits, Digits.read?_write, fits, guard]

lemma addressKey?_quote (a : Address) : textualKey? Address.ofText? (quote a.text) = some a := by
  rw [textualKey?, unquote?_quote, Option.bind_some, a.ofText?_text]

end Json

end VaultIndex
