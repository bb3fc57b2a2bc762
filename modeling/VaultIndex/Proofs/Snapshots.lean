import VaultIndex.Proofs.Tables
import VaultIndex.Snapshot.Basic

/-!
# Which entries of a snapshot count

Of several vaults or strategies in a list that have one address, the last one counts. Where all
addresses are different, the order of a list says nothing (`Rearranges.vaultsByAddress_eq`), and
entries that do not count may be left out (`vaultsByAddress_withoutSuperseded`).
-/

namespace VaultIndex

/-- Without the entries that are followed by another one with the same address. -/
def lastEntries {α : Type} (address : α → Address) : List α → List α
  | [] => []
  | a :: rest =>
    if address a ∈ rest.map address then lastEntries address rest
    else a :: lastEntries address rest

lemma getLast?_filter_lastEntries {α : Type} (address : α → Address) (l : List α) (k : Address) :
    ((lastEntries address l).filter (address · = k)).getLast? =
      (l.filter (address · = k)).getLast? := by
  induction l with
  | nil => rfl
  | cons a rest ih =>
    rw [lastEntries]
    by_cases hk : address a = k
    · rw [List.filter_cons_of_pos (by simpa using hk), List.getLast?_cons, ← ih]
      split
      · next later =>
        rw [List.mem_map] at later
        obtain ⟨b, hb, hba⟩ := later
        have found : ((lastEntries address rest).filter (address · = k)).getLast? ≠ none := by
          rw [ih, ne_eq, List.getLast?_eq_none_iff, List.filter_eq_nil_iff]
          intro none
          exact none b hb (decide_eq_true (hba.trans hk))
        obtain ⟨w, hw⟩ := Option.ne_none_iff_exists'.1 found
        rw [hw, Option.getD_some]
      · rw [List.filter_cons_of_pos (by simpa using hk), List.getLast?_cons]
    · rw [List.filter_cons_of_neg (by simpa using hk), ← ih]
      split
      · rfl
      · rw [List.filter_cons_of_neg (by simpa using hk)]

lemma ofList_lastEntries {α : Type} (address : α → Address) (l : List α) :
    Table.ofList ((lastEntries address l).map fun a => (address a, a)) =
      Table.ofList (l.map fun a => (address a, a)) := by
  apply Table.ext_get?
  intro k
  rw [Table.get?_ofList_keyed, Table.get?_ofList_keyed, getLast?_filter_lastEntries]

namespace ChainSnapshot

variable {c c' : ChainSnapshot} {address : Address} {v : Vault}

lemma get?_byAddress (vaults : List Vault) (address : Address) :
    (byAddress vaults).get? address = (vaults.filter (·.address = address)).getLast? :=
  Table.get?_ofList_keyed _ vaults address

lemma mem_of_get?_vaultsByAddress (h : c.vaultsByAddress.get? address = some v) :
    v ∈ c.vaults ∧ v.address = address := by
  rw [vaultsByAddress, get?_byAddress] at h
  simpa using List.mem_of_getLast? h

lemma address_of_get?_strategiesByAddress {strategies : List Strategy} {s : Strategy}
    (h : (strategiesByAddress strategies).get? address = some s) : s.address = address := by
  rw [strategiesByAddress, Table.get?_ofList_keyed] at h
  simpa using (List.mem_filter.1 (List.mem_of_getLast? h)).2

/-! ### Other listings -/

/-- No list of a snapshot holds an address twice. -/
structure Distinct (c : ChainSnapshot) : Prop where
  vaults : (c.vaults.map (·.address)).Nodup
  strategies : ∀ address l, c.strategies.get? address = some l → (l.map (·.address)).Nodup

/-- A snapshot has the entries of another one, in lists that may be in another order. -/
structure Rearranges (c c' : ChainSnapshot) : Prop where
  vaults : c.vaults.Perm c'.vaults
  strategies : ∀ address,
    Option.Rel List.Perm (c.strategies.get? address) (c'.strategies.get? address)

/-- The snapshot without the entries that are followed in their list by another one with the same
address. -/
def withoutSuperseded (c : ChainSnapshot) : ChainSnapshot where
  vaults := lastEntries (·.address) c.vaults
  strategies := c.strategies.map (lastEntries (·.address))

namespace Rearranges

lemma vaultsByAddress_eq (h : c.Rearranges c') (distinct : c.Distinct) :
    c'.vaultsByAddress = c.vaultsByAddress :=
  (Table.ofList_keyed_perm distinct.vaults h.vaults).symm

lemma strategiesByVault_eq (h : c.Rearranges c') (distinct : c.Distinct) :
    c'.strategiesByVault = c.strategiesByVault := by
  apply Table.ext_get?
  intro address
  rw [strategiesByVault, strategiesByVault, Table.get?_map, Table.get?_map]
  have known := distinct.strategies address
  have same := h.strategies address
  generalize c.strategies.get? address = l at known same ⊢
  generalize c'.strategies.get? address = l' at same ⊢
  cases same with
  | none => rfl
  | some perm => exact congrArg some (Table.ofList_keyed_perm (known _ rfl) perm).symm

end Rearranges

lemma vaultsByAddress_withoutSuperseded (c : ChainSnapshot) :
    c.withoutSuperseded.vaultsByAddress = c.vaultsByAddress :=
  ofList_lastEntries _ c.vaults

lemma strategiesByVault_withoutSuperseded (c : ChainSnapshot) :
    c.withoutSuperseded.strategiesByVault = c.strategiesByVault := by
  apply Table.ext_get?
  intro address
  simp only [strategiesByVault, withoutSuperseded, Table.get?_map, Option.map_map]
  cases c.strategies.get? address with
  | none => rfl
  | some l => exact congrArg some (ofList_lastEntries _ l)

end ChainSnapshot

end VaultIndex
