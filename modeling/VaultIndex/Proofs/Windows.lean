import Mathlib.Data.List.Basic
import VaultIndex.Rpc.Basic

/-!
# Windows without gaps

The windows of a range follow one another without gap or overlap from its first block to its last
(`tiles_blockWindows`). The stream of a node's events asks for one window after the other, in that
order, until one is refused (`LogNode.eventsFrom_eq_itemsOver`).
-/

namespace VaultIndex

/-- Windows that follow one another from a first block up to, but without, a last one. -/
inductive Tiles : Nat → Nat → List Window → Prop where
  | nil (start : Nat) : Tiles start start []
  | cons {stop : Nat} {w : Window} {rest : List Window} (valid : w.first ≤ w.last)
      (tail : Tiles (w.last.toNat + 1) stop rest) : Tiles w.first.toNat stop (w :: rest)

namespace Tiles

variable {start stop : Nat} {ws : List Window}

lemma start_le (h : Tiles start stop ws) : start ≤ stop := by
  induction h with
  | nil => exact Nat.le_refl _
  | cons valid tail ih =>
    rw [UInt64.le_iff_toNat_le] at valid
    omega

end Tiles

section Windows

variable {start stop maxRange : UInt64}

lemma Window.toNat_last_add_one {size : UInt64}
    (hl : (Window.startingAt stop size start).last < stop) :
    ((Window.startingAt stop size start).last + 1).toNat =
      (Window.startingAt stop size start).last.toNat + 1 := by
  have hb := stop.toNat_lt
  rw [UInt64.lt_iff_toNat_lt] at hl
  rw [UInt64.toNat_add, UInt64.toNat_one, Nat.mod_eq_of_lt (by omega)]

theorem tiles_blockWindows (h : start ≤ stop) :
    Tiles start.toNat (stop.toNat + 1) (blockWindows start stop maxRange) := by
  induction start using blockWindows.induct stop maxRange with
  | case1 start hs w hl ih =>
    rw [blockWindows, dif_pos hs, dif_pos hl]
    have tail := ih (UInt64.le_iff_toNat_le.2 ?_)
    · rw [Window.toNat_last_add_one hl] at tail
      exact .cons (Window.first_le_last hs (windowSize_pos maxRange)) tail
    · rw [Window.toNat_last_add_one hl]
      exact UInt64.lt_iff_toNat_lt.1 hl
  | case2 start hs w hl =>
    rw [blockWindows, dif_pos hs, dif_neg hl]
    have last : w.last = stop :=
      UInt64.le_antisymm (Window.last_le hs (windowSize_pos maxRange)) (UInt64.not_lt.1 hl)
    have tail : Tiles (w.last.toNat + 1) (stop.toNat + 1) [] := by
      rw [last]
      exact .nil _
    exact .cons (Window.first_le_last hs (windowSize_pos maxRange)) tail
  | case3 start hs => exact absurd h hs

lemma blockWindows_eq_nil (h : stop < start) : blockWindows start stop maxRange = [] := by
  rw [blockWindows, dif_neg (UInt64.not_le.2 h)]

end Windows

namespace LogNode

variable {m : Type → Type} [Monad m]

/-- The events of some windows, up to the first one that is refused. -/
def itemsOver (node : LogNode m) (filter : EventFilter) : List Window → m (List StreamItem)
  | [] => return []
  | w :: rest => do
    match ← node.logs (filter.query w) with
    | .error cause => return [.failure cause]
    | .ok logs => return logs.map (StreamItem.ofLog filter.kind) ++ (← node.itemsOver filter rest)

/-- The stream of a range is that of its windows. -/
theorem eventsFrom_eq_itemsOver [LawfulMonad m] (node : LogNode m) (filter : EventFilter)
    (stop maxRange start : UInt64) :
    node.eventsFrom filter stop maxRange start =
      node.itemsOver filter (blockWindows start stop maxRange) := by
  induction start using blockWindows.induct stop maxRange with
  | case1 start hs w hl ih =>
    rw [eventsFrom, dif_pos hs, blockWindows, dif_pos hs, dif_pos hl, itemsOver]
    refine bind_congr fun answer => ?_
    simp only [w] at hl ih
    cases answer with
    | error cause => rfl
    | ok logs => simp only [hl, dite_true, ih]
  | case2 start hs w hl =>
    rw [eventsFrom, dif_pos hs, blockWindows, dif_pos hs, dif_neg hl, itemsOver]
    refine bind_congr fun answer => ?_
    simp only [w] at hl
    cases answer with
    | error cause => rfl
    | ok logs => simp [itemsOver, hl]
  | case3 start hs =>
    rw [eventsFrom, dif_neg hs, blockWindows, dif_neg hs, itemsOver]

/-- A node that keeps a list of the requests made to it. -/
def recorded (node : LogNode m) : LogNode (StateT (List RpcRequest) m) where
  headBlock := do
    modify (· ++ [.blockNumber])
    node.headBlock
  logs query := do
    modify (· ++ [.getLogs query])
    node.logs query

end LogNode

end VaultIndex
