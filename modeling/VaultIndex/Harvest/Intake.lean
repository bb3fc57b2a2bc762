import VaultIndex.Event.History
import VaultIndex.Event.Source
import VaultIndex.Metrics.Tally

/-!
# Taking events in

Items of a stream are taken in one by one. Each has one fate: it becomes a record, it is counted as
a failure, or it is passed over because its place on the chain is not known.
-/

namespace VaultIndex

/-- Where records are gathered while events are taken in. -/
structure EventKey where
  vault : Address
  block : UInt64
deriving DecidableEq, Inhabited

/-- Keys are ordered by their vaults, and those of one vault by their blocks. -/
instance : Numbered EventKey where
  number k := k.vault.word.toNat * UInt64.size + k.block.toNat
  number_inj {a b} h := by
    obtain ⟨⟨va⟩, ba⟩ := a
    obtain ⟨⟨vb⟩, bb⟩ := b
    have ha := ba.toNat_lt
    have hb := bb.toNat_lt
    simp only [UInt64.size] at h
    have h₁ : va.toNat = vb.toNat := by omega
    have h₂ : ba.toNat = bb.toNat := by omega
    rw [BitVec.toNat_inj] at h₁
    rw [UInt64.toNat_inj] at h₂
    simp [h₁, h₂]

/-- Records in the order in which they were gathered. -/
abbrev Gathered := Table EventKey (List EventRecord)

namespace Gathered

/-- Gathers one more record of a vault. -/
def push (g : Gathered) (vault : Address) (r : EventRecord) : Gathered :=
  g.update ⟨vault, r.block⟩ fun records? => records?.getD [] ++ [r]

/-- The history of gathered records, filed one key after the other. -/
def filed (entries : List (EventKey × List EventRecord)) : EventHistory :=
  entries.foldl (fun h e => h.extendBlock e.1.vault e.1.block e.2) .empty

/-- The history of all that was gathered. -/
def history (g : Gathered) : EventHistory := filed g.entries

end Gathered

/-- What becomes of an item. -/
inductive Fate where
  | stored (r : EventRecord)
  | failed
  /-- Passed over, because its place on the chain is not known. -/
  | unlocated
  /-- The end of the whole stream. -/
  | fatal
deriving DecidableEq

/-- What becomes of an item when events of a kind are wanted. -/
def StreamItem.fate (kind : EventKind) : StreamItem → Fate
  | event e =>
    match e.located? kind with
    | some r => .stored r
    | none => .unlocated
  | failure _ => .failed
  | breakdown => .fatal

/-- What was taken in from one stream. -/
structure Intake where
  gathered : Gathered
  tally : Tally
  /-- The number of records that this stream has added. -/
  added : Nat := 0

namespace Intake

variable (chain : ChainId) (filter : EventFilter)

/-- Takes one item in. -/
def take (x : Intake) (item : StreamItem) : Intake :=
  match item.fate filter.kind with
  | .stored r => { x with gathered := x.gathered.push filter.address r, added := x.added + 1 }
  | .failed => { x with tally := x.tally.add (.logQueriesFailed chain filter.kind) 1 }
  | .unlocated | .fatal => x

/-- Counts the records of a stream that has been taken in to its end. -/
def finish (x : Intake) : Intake :=
  { x with tally := x.tally.add (.eventsHarvested chain filter.kind) x.added }

/-- Takes a stream in. Where it breaks down, what was gathered before stays, uncounted. -/
def takeAll (x : Intake) : List StreamItem → Intake
  | [] => x.finish chain filter
  | .breakdown :: _ => x
  | item :: rest => (x.take chain filter item).takeAll rest

end Intake

/-- Takes in what a source yields for a filter; the answer is how many records that added. -/
def filterVaultEvents {m : Type → Type} [Monad m] (chain : ChainId) (source : EventSource m)
    (filter : EventFilter) (gathered : Gathered) : Activity m (Gathered × Nat) := do
  let items ← Activity.outside (source filter)
  let x := Intake.takeAll chain filter ⟨gathered, ← get, 0⟩ items
  set x.tally
  return (x.gathered, x.added)

end VaultIndex
