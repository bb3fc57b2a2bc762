/-!
# Tables

Finite maps whose entries stand in strictly ascending order of their keys' numbers. The order in
which entries were written leaves no trace (see `Table.ext_get?`).
-/

namespace VaultIndex

/-- Keys that are told apart, and put in order, by a natural number. -/
class Numbered (κ : Type) where
  number : κ → Nat
  number_inj : ∀ {a b : κ}, number a = number b → a = b

open Numbered (number)

instance : Numbered UInt64 := ⟨UInt64.toNat, UInt64.toNat_inj.1⟩

/-- A finite map with its entries in strictly ascending order of keys. -/
structure Table (κ ν : Type) [Numbered κ] where
  entries : List (κ × ν)
  ascending : entries.Pairwise fun a b => number a.1 < number b.1

namespace Table

variable {κ ν μ : Type} [Numbered κ]

instance [DecidableEq κ] [DecidableEq ν] : DecidableEq (Table κ ν) := fun a b =>
  decidable_of_iff (a.entries = b.entries) (by cases a; cases b; simp)

/-- The table without entries. -/
def empty : Table κ ν := ⟨[], .nil⟩

instance : EmptyCollection (Table κ ν) := ⟨empty⟩
instance : Inhabited (Table κ ν) := ⟨empty⟩

/-! ### Writing -/

/-- Files `v` under `k` among ascending entries, in place of what stood there. -/
def place (k : κ) (v : ν) : List (κ × ν) → List (κ × ν)
  | [] => [(k, v)]
  | e :: rest =>
    if number k < number e.1 then (k, v) :: e :: rest
    else if number k = number e.1 then (k, v) :: rest
    else e :: place k v rest

theorem mem_place {k : κ} {v : ν} {e : κ × ν} {l : List (κ × ν)} :
    e ∈ place k v l → e = (k, v) ∨ e ∈ l := by
  induction l with
  | nil => simp [place]
  | cons a rest ih => rw [place]; split <;> (try split) <;> grind

theorem ascending_place (k : κ) (v : ν) {l : List (κ × ν)}
    (h : l.Pairwise fun a b => number a.1 < number b.1) :
    (place k v l).Pairwise fun a b => number a.1 < number b.1 := by
  induction l with
  | nil => simp [place]
  | cons a rest ih =>
    obtain ⟨ha, hr⟩ := List.pairwise_cons.1 h
    rw [place]
    split
    · exact .cons (fun b hb => by grind) h
    · split
      · exact .cons (fun b hb => by grind) hr
      · refine .cons (fun b hb => ?_) (ih hr)
        rcases mem_place hb with rfl | hb
        · simp only; omega
        · exact ha b hb

/-- Files a value under a key; the last value filed under a key stays. -/
def insert (t : Table κ ν) (k : κ) (v : ν) : Table κ ν :=
  ⟨place k v t.entries, ascending_place k v t.ascending⟩

/-- Entries filed one after the other. -/
def ofList (l : List (κ × ν)) : Table κ ν :=
  l.foldl (fun t e => t.insert e.1 e.2) empty

/-- Replaces every value. -/
def map (f : ν → μ) (t : Table κ ν) : Table κ μ where
  entries := t.entries.map fun e => (e.1, f e.2)
  ascending := by rw [List.pairwise_map]; exact t.ascending

/-! ### Reading -/

/-- The value filed under a key. -/
def get? (t : Table κ ν) (k : κ) : Option ν :=
  (t.entries.find? fun e => number e.1 == number k).map (·.2)

/-- Whether a key has an entry. -/
def contains (t : Table κ ν) (k : κ) : Bool := (t.get? k).isSome

/-- The number of keys. -/
def size (t : Table κ ν) : Nat := t.entries.length

/-- Whether no key has an entry. -/
def isEmpty (t : Table κ ν) : Bool := t.entries.isEmpty

/-- The keys in ascending order. -/
def keys (t : Table κ ν) : List κ := t.entries.map (·.1)

/-- The values in ascending order of their keys. -/
def values (t : Table κ ν) : List ν := t.entries.map (·.2)

/-- The entry with the greatest key up to a bound. -/
def atOrBelow? (t : Table κ ν) (bound : κ) : Option (κ × ν) :=
  (t.entries.filter fun e => number e.1 ≤ number bound).getLast?

/-- Updates what is filed under a key; `none` stands for no entry. -/
def update (t : Table κ ν) (k : κ) (f : Option ν → ν) : Table κ ν :=
  t.insert k (f (t.get? k))

end Table

end VaultIndex
