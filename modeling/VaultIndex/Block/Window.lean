import VaultIndex.Evm.Word

/-!
# Block windows

A range of blocks is asked about in windows of a bounded number of blocks. The windows follow one
another without gap or overlap, each as long as the bound admits. No sum in here is larger than the
last block of the range.
-/

namespace VaultIndex

/-- Blocks from a first to a last one, both included. -/
structure Window where
  first : UInt64
  last : UInt64
deriving DecidableEq, Inhabited

namespace Window

/-- The window that starts at a block, with at most `size` blocks and none beyond `stop`. -/
def startingAt (stop size start : UInt64) : Window :=
  ⟨start, if stop - start < size then stop else start + (size - 1)⟩

/-- The last block of a window is a sum that does not overflow. -/
theorem toNat_last {stop size start : UInt64} (h : start ≤ stop) (hs : 0 < size) :
    (startingAt stop size start).last.toNat = min stop.toNat (start.toNat + size.toNat - 1) := by
  unfold startingAt
  have hd : (stop - start).toNat = stop.toNat - start.toNat := UInt64.toNat_sub_of_le _ _ h
  rw [UInt64.le_iff_toNat_le] at h
  rw [UInt64.lt_iff_toNat_lt] at hs
  have hs : 1 ≤ size.toNat := hs
  simp only
  split
  · next hlt =>
    rw [UInt64.lt_iff_toNat_lt, hd] at hlt
    omega
  · next hlt =>
    rw [UInt64.lt_iff_toNat_lt, hd] at hlt
    have h1 : (size - 1).toNat = size.toNat - 1 :=
      UInt64.toNat_sub_of_le _ _ (UInt64.le_iff_toNat_le.2 hs)
    have hb := stop.toNat_lt
    rw [UInt64.toNat_add, h1, Nat.mod_eq_of_lt (by omega)]
    omega

theorem first_le_last {stop size start : UInt64} (h : start ≤ stop) (hs : 0 < size) :
    start ≤ (startingAt stop size start).last := by
  have hl := toNat_last h hs
  rw [UInt64.le_iff_toNat_le] at *
  rw [UInt64.lt_iff_toNat_lt] at hs
  have hs : 1 ≤ size.toNat := hs
  omega

theorem last_le {stop size start : UInt64} (h : start ≤ stop) (hs : 0 < size) :
    (startingAt stop size start).last ≤ stop := by
  rw [UInt64.le_iff_toNat_le, toNat_last h hs]
  omega

theorem left_lt {stop size start : UInt64} (h : start ≤ stop) (hs : 0 < size)
    (hl : (startingAt stop size start).last < stop) :
    stop.toNat + 1 - ((startingAt stop size start).last + 1).toNat <
      stop.toNat + 1 - start.toNat := by
  have h₁ := UInt64.le_iff_toNat_le.1 (first_le_last h hs)
  have h₂ := UInt64.lt_iff_toNat_lt.1 hl
  have hb := stop.toNat_lt
  rw [UInt64.toNat_add, Nat.mod_eq_of_lt (by simp; omega)]
  simp
  omega

end Window

/-- The number of blocks that a window may hold; at least one. -/
def windowSize (maxRange : UInt64) : UInt64 := if maxRange = 0 then 1 else maxRange

theorem windowSize_pos (maxRange : UInt64) : 0 < windowSize maxRange := by
  unfold windowSize
  split
  · decide
  · next h => exact UInt64.pos_iff_ne_zero.2 h

/-- The windows of the blocks from `start` to `stop`. -/
def blockWindows (start stop maxRange : UInt64) : List Window :=
  if h : start ≤ stop then
    let w := Window.startingAt stop (windowSize maxRange) start
    if hl : w.last < stop then w :: blockWindows (w.last + 1) stop maxRange else [w]
  else []
termination_by stop.toNat + 1 - start.toNat
decreasing_by exact Window.left_lt h (windowSize_pos maxRange) hl

/-- The first so many windows, and whether there are others. -/
def firstBlockWindows (start stop maxRange : UInt64) : Nat → List Window × Bool
  | 0 => ([], start ≤ stop)
  | limit + 1 =>
    if start ≤ stop then
      let w := Window.startingAt stop (windowSize maxRange) start
      if w.last < stop then
        let (more, others) := firstBlockWindows (w.last + 1) stop maxRange limit
        (w :: more, others)
      else ([w], false)
    else ([], false)

end VaultIndex
