import Mathlib.Algebra.Order.Floor.Div
import VaultIndex.Proofs.Windows

/-!
# How windows share out a range

Every block of a range is in exactly one of its windows. All windows but the last one are full, so
that there are as many as the range holds full windows, rounded up (`blockWindows_partition`). Going
through the range one window at a time, with checked sums of words, ends after just these windows
(`walk_blockWindows`).
-/

namespace VaultIndex

/-! ### One window at a time -/

/-- The sum of two words, or the largest word where the sum is larger. -/
def saturatingSum (a b : UInt64) : UInt64 :=
  if a.toNat + b.toNat < UInt64.size then a + b else -1

/-- The difference of two words; `none` where it is negative. -/
def difference? (a b : UInt64) : Option UInt64 := if b ≤ a then some (a - b) else none

/-- The block behind a block; there is none behind the largest word. -/
def blockAfter? (block : UInt64) : Option UInt64 :=
  if block.toNat + 1 < UInt64.size then some (block + 1) else none

/-- The window that starts at a block and the start of the next one; `none` where this overflows. -/
def Window.step? (stop size start : UInt64) : Option (Window × Option UInt64) := do
  let more ← difference? size 1
  let last := min (saturatingSum start more) stop
  return (⟨start, last⟩, (blockAfter? last).filter (· ≤ stop))

/-- Going through a range from where the next window starts until none is left. -/
inductive Walk (stop size : UInt64) : Option UInt64 → List Window → Prop where
  | over : Walk stop size none []
  | goesOn {start : UInt64} {w : Window} {next : Option UInt64} {rest : List Window}
      (step : Window.step? stop size start = some (w, next)) (later : Walk stop size next rest) :
      Walk stop size (some start) (w :: rest)

section Steps

variable {stop size start maxRange : UInt64}

lemma windowSize_eq_max : windowSize maxRange = max maxRange 1 := by
  rw [← UInt64.toNat_inj, UInt64.toNat_max, UInt64.toNat_one, windowSize]
  split
  · next h => rw [h]; rfl
  · next h =>
    have pos : maxRange.toNat ≠ 0 := fun zero => h (UInt64.toNat_inj.1 zero)
    omega

lemma toNat_saturatingSum (a b : UInt64) :
    (saturatingSum a b).toNat = min (a.toNat + b.toNat) (UInt64.size - 1) := by
  unfold saturatingSum
  split
  · next h =>
    rw [UInt64.toNat_add, Nat.mod_eq_of_lt h]
    omega
  · next h =>
    have largest : (-1 : UInt64).toNat = UInt64.size - 1 := rfl
    rw [largest]
    omega

lemma min_saturatingSum (h : start ≤ stop) (hs : 0 < size) :
    min (saturatingSum start (size - 1)) stop = (Window.startingAt stop size start).last := by
  have pos : (1 : UInt64) ≤ size := UInt64.le_iff_toNat_le.2 (UInt64.lt_iff_toNat_lt.1 hs)
  have bound : stop.toNat < UInt64.size := stop.toNat_lt
  have positive : 1 ≤ size.toNat := UInt64.le_iff_toNat_le.1 pos
  rw [← UInt64.toNat_inj, Window.toNat_last h hs, UInt64.toNat_min, toNat_saturatingSum,
    UInt64.toNat_sub_of_le _ _ pos, UInt64.toNat_one]
  omega

lemma filter_blockAfter? (block stop : UInt64) :
    (blockAfter? block).filter (· ≤ stop) = if block < stop then some (block + 1) else none := by
  have bound : stop.toNat < UInt64.size := stop.toNat_lt
  unfold blockAfter?
  split
  · next h =>
    have behind : (block + 1).toNat = block.toNat + 1 := by
      rw [UInt64.toNat_add, UInt64.toNat_one, Nat.mod_eq_of_lt h]
    rw [Option.filter_some]
    simp only [UInt64.lt_iff_toNat_lt, UInt64.le_iff_toNat_le, behind, decide_eq_true_eq,
      Nat.succ_le_iff]
  · next h =>
    have largest : ¬ block < stop := by
      rw [UInt64.lt_iff_toNat_lt]
      omega
    rw [if_neg largest, Option.filter_none]

/-- A step of a walk does not overflow: it takes the window that starts at a block, and goes on
behind it unless it was the last one. -/
lemma Window.step?_eq (h : start ≤ stop) (hs : 0 < size) :
    Window.step? stop size start =
      let w := Window.startingAt stop size start
      some (w, if w.last < stop then some (w.last + 1) else none) := by
  have pos : (1 : UInt64) ≤ size := UInt64.le_iff_toNat_le.2 (UInt64.lt_iff_toNat_lt.1 hs)
  rw [step?, difference?, if_pos pos, Option.bind_eq_bind, Option.bind_some,
    min_saturatingSum h hs]
  simp only [filter_blockAfter?]
  rfl

/-- The walk through a range takes the windows of the range. -/
theorem walk_blockWindows (start stop maxRange : UInt64) :
    Walk stop (windowSize maxRange) (if start ≤ stop then some start else none)
      (blockWindows start stop maxRange) := by
  induction start using blockWindows.induct stop maxRange with
  | case1 start hs w hl ih =>
    have onwards : w.last + 1 ≤ stop := by
      rw [UInt64.le_iff_toNat_le, Window.toNat_last_add_one hl]
      exact UInt64.lt_iff_toNat_lt.1 hl
    rw [if_pos onwards] at ih
    rw [blockWindows, dif_pos hs, dif_pos hl, if_pos hs]
    refine .goesOn ?_ ih
    simp only [Window.step?_eq hs (windowSize_pos maxRange)]
    rw [if_pos hl]
  | case2 start hs w hl =>
    rw [blockWindows, dif_pos hs, dif_neg hl, if_pos hs]
    refine .goesOn ?_ .over
    simp only [Window.step?_eq hs (windowSize_pos maxRange)]
    rw [if_neg hl]
  | case3 start hs =>
    rw [blockWindows, dif_neg hs, if_neg hs]
    exact .over

end Steps

/-! ### Blocks and windows -/

/-- The number of blocks in a window. -/
def Window.blocks (w : Window) : Nat := w.last.toNat + 1 - w.first.toNat

namespace Tiles

variable {start stop : Nat} {w v : Window} {ws rest : List Window}

lemma nil_iff : Tiles start stop [] ↔ start = stop := by
  constructor
  · rintro ⟨⟩
    rfl
  · rintro rfl
    exact .nil start

lemma cons_iff :
    Tiles start stop (w :: rest) ↔
      w.first.toNat = start ∧ w.first ≤ w.last ∧ Tiles (w.last.toNat + 1) stop rest := by
  constructor
  · generalize h : w :: rest = ws
    rintro (_ | ⟨valid, tail⟩)
    · cases h
    · cases h
      exact ⟨rfl, valid, tail⟩
  · rintro ⟨rfl, valid, tail⟩
    exact .cons valid tail

/-- Behind a window that is followed by another one there are blocks left. -/
lemma last_lt_of_cons (h : Tiles start stop (w :: v :: rest)) : w.last.toNat + 1 < stop := by
  obtain ⟨behind, valid, later⟩ := cons_iff.1 (cons_iff.1 h).2.2
  rw [UInt64.le_iff_toNat_le] at valid
  have onwards := later.start_le
  omega

lemma valid (h : Tiles start stop ws) : ∀ w ∈ ws, w.first ≤ w.last := by
  induction h with
  | nil => exact List.forall_mem_nil _
  | cons valid tail ih => exact List.forall_mem_cons.2 ⟨valid, ih⟩

lemma start_le_first (h : Tiles start stop ws) : ∀ w ∈ ws, start ≤ w.first.toNat := by
  induction h with
  | nil => exact List.forall_mem_nil _
  | cons valid tail ih =>
    rw [UInt64.le_iff_toNat_le] at valid
    refine List.forall_mem_cons.2 ⟨Nat.le_refl _, fun v hv => ?_⟩
    have behind := ih v hv
    omega

/-- Windows that follow one another share no block. -/
lemma pairwise_lt (h : Tiles start stop ws) : ws.Pairwise fun w v => w.last < v.first := by
  induction h with
  | nil => exact .nil
  | cons valid tail ih =>
    refine List.pairwise_cons.2 ⟨fun v hv => ?_, ih⟩
    exact UInt64.lt_iff_toNat_lt.2 (tail.start_le_first v hv)

lemma isChain (h : Tiles start stop ws) :
    ws.IsChain fun w v => v.first.toNat = w.last.toNat + 1 := by
  induction ws generalizing start with
  | nil => exact .nil
  | cons w rest ih =>
    obtain ⟨-, -, tail⟩ := cons_iff.1 h
    cases rest with
    | nil => exact .singleton _
    | cons v rest => exact .cons_cons (cons_iff.1 tail).1 (ih tail)

lemma exists_mem_iff (h : Tiles start stop ws) {block : Nat} :
    (∃ w ∈ ws, w.first.toNat ≤ block ∧ block ≤ w.last.toNat) ↔ start ≤ block ∧ block < stop := by
  induction h with
  | nil start =>
    simp only [List.not_mem_nil, false_and, exists_false, false_iff]
    omega
  | cons valid tail ih =>
    have onwards := tail.start_le
    rw [UInt64.le_iff_toNat_le] at valid
    rw [List.exists_mem_cons_iff, ih]
    omega

lemma head?_eq {first : UInt64} (h : Tiles first.toNat stop ws) (some_block : first.toNat < stop) :
    ws.head?.map (·.first) = some first := by
  cases ws with
  | nil => exact absurd (nil_iff.1 h) (Nat.ne_of_lt some_block)
  | cons w rest => exact congrArg some (UInt64.toNat_inj.1 (cons_iff.1 h).1)

lemma getLast?_eq {last : UInt64} (h : Tiles start (last.toNat + 1) ws)
    (some_block : start ≤ last.toNat) : ws.getLast?.map (·.last) = some last := by
  induction ws generalizing start with
  | nil => exact absurd (nil_iff.1 h) (by omega)
  | cons w rest ih =>
    obtain ⟨-, -, tail⟩ := cons_iff.1 h
    cases rest with
    | nil => exact congrArg some (UInt64.toNat_inj.1 (Nat.succ.inj (nil_iff.1 tail)))
    | cons v rest =>
      rw [List.getLast?_cons_cons]
      exact ih tail (Nat.lt_succ_iff.1 h.last_lt_of_cons)

lemma last_lt_of_mem_dropLast (h : Tiles start stop ws) :
    ∀ w ∈ ws.dropLast, w.last.toNat + 1 < stop := by
  induction ws generalizing start with
  | nil => exact List.forall_mem_nil _
  | cons w rest ih =>
    obtain ⟨-, -, tail⟩ := cons_iff.1 h
    cases rest with
    | nil => exact List.forall_mem_nil _
    | cons v rest =>
      rw [List.dropLast_cons_cons, List.forall_mem_cons]
      exact ⟨h.last_lt_of_cons, ih tail⟩

/-- Where each window is full or goes up to the end, there are as many as there are full windows,
rounded up. -/
lemma length_eq (h : Tiles start stop ws) {size : Nat} (pos : 0 < size)
    (filled : ∀ w ∈ ws, w.blocks = min (stop - w.first.toNat) size) :
    ws.length = (stop - start) ⌈/⌉ size := by
  induction h with
  | nil start => rw [Nat.sub_self, zero_ceilDiv, List.length_nil]
  | @cons stop w rest valid tail ih =>
    obtain ⟨here, later⟩ := List.forall_mem_cons.1 filled
    have onwards := tail.start_le
    rw [UInt64.le_iff_toNat_le] at valid
    rw [Window.blocks] at here
    rw [List.length_cons, ih later]
    simp only [Nat.ceilDiv_eq_add_pred_div]
    rcases Nat.eq_or_lt_of_le onwards with ends | goesOn
    · have none : (stop - (w.last.toNat + 1) + size - 1) / size = 0 := Nat.div_eq_of_lt (by omega)
      have one : (stop - w.first.toNat + size - 1) / size = 1 :=
        Nat.div_eq_of_lt_le (by omega) (by omega)
      rw [none, one]
    · rw [← Nat.add_div_right _ pos]
      congr 1
      omega

end Tiles

section Sizes

variable {stop maxRange : UInt64}

lemma Window.blocks_startingAt {size start : UInt64} (h : start ≤ stop) (hs : 0 < size) :
    (startingAt stop size start).blocks = min (stop.toNat + 1 - start.toNat) size.toNat := by
  have last := Window.toNat_last h hs
  rw [UInt64.le_iff_toNat_le] at h
  rw [UInt64.lt_iff_toNat_lt, UInt64.toNat_zero] at hs
  have same : (startingAt stop size start).first = start := rfl
  rw [blocks, last, same]
  omega

/-- Each window is full or goes up to the end of the range. -/
lemma blocks_of_mem_blockWindows (start : UInt64) :
    ∀ w ∈ blockWindows start stop maxRange,
      w.blocks = min (stop.toNat + 1 - w.first.toNat) (windowSize maxRange).toNat := by
  induction start using blockWindows.induct stop maxRange with
  | case1 start hs w hl ih =>
    rw [blockWindows, dif_pos hs, dif_pos hl, List.forall_mem_cons]
    exact ⟨Window.blocks_startingAt hs (windowSize_pos maxRange), ih⟩
  | case2 start hs w hl =>
    rw [blockWindows, dif_pos hs, dif_neg hl, List.forall_mem_singleton]
    exact Window.blocks_startingAt hs (windowSize_pos maxRange)
  | case3 start hs =>
    rw [blockWindows, dif_neg hs]
    exact List.forall_mem_nil _

/-- The windows of a range start at its first block, follow one another without a gap and end at its
last block, so that each of its blocks is in one of them. They hold at most as many blocks as
allowed, all but the last one just as many, and none of the sums for them overflows. -/
theorem blockWindows_partition (start stop maxRange : UInt64) :
    let windows := blockWindows start stop maxRange
    let size := max maxRange.toNat 1
    Walk stop (max maxRange 1) (if start ≤ stop then some start else none) windows ∧
    (stop < start → windows = []) ∧
    (start ≤ stop →
      windows.head?.map (·.first) = some start ∧
      windows.IsChain (fun w v => v.first.toNat = w.last.toNat + 1) ∧
      windows.getLast?.map (·.last) = some stop ∧
      (∀ block, (∃ w ∈ windows, w.first ≤ block ∧ block ≤ w.last) ↔ start ≤ block ∧ block ≤ stop) ∧
      windows.Pairwise (fun w v => w.last < v.first) ∧
      (∀ w ∈ windows, w.first ≤ w.last ∧ w.blocks ≤ size) ∧
      (∀ w ∈ windows.dropLast, w.blocks = size) ∧
      windows.length = (stop.toNat - start.toNat + 1) ⌈/⌉ size) := by
  intro windows size
  have walk := walk_blockWindows start stop maxRange
  rw [windowSize_eq_max] at walk
  refine ⟨walk, blockWindows_eq_nil, fun h => ?_⟩
  have tiles : Tiles start.toNat (stop.toNat + 1) windows := tiles_blockWindows h
  have filled : ∀ w ∈ windows, w.blocks = min (stop.toNat + 1 - w.first.toNat) size := by
    intro w hw
    rw [blocks_of_mem_blockWindows start w hw, windowSize_eq_max, UInt64.toNat_max,
      UInt64.toNat_one]
  have pos : 0 < size := Nat.lt_of_lt_of_le Nat.one_pos (Nat.le_max_right _ _)
  rw [UInt64.le_iff_toNat_le] at h
  refine ⟨tiles.head?_eq (by omega), tiles.isChain, tiles.getLast?_eq h, ?_, tiles.pairwise_lt,
    ?_, ?_, ?_⟩
  · intro block
    simp only [UInt64.le_iff_toNat_le]
    rw [tiles.exists_mem_iff, Nat.lt_succ_iff]
  · intro w hw
    refine ⟨tiles.valid w hw, ?_⟩
    rw [filled w hw]
    exact Nat.min_le_right _ _
  · intro w hw
    have further := tiles.last_lt_of_mem_dropLast w hw
    have hw := List.mem_of_mem_dropLast hw
    have valid := UInt64.le_iff_toNat_le.1 (tiles.valid w hw)
    have here := filled w hw
    rw [Window.blocks] at here ⊢
    omega
  · rw [tiles.length_eq pos filled]
    congr 1
    omega

/-- All blocks there are, in two windows of almost half of them and one of the two that are left. -/
theorem blockWindows_partition_of_all_blocks :
    let windows := blockWindows 0 (-1) 0x7fffffffffffffff
    windows.length = 3 ∧ windows.getLast?.map (·.last) = some (-1) := by
  obtain ⟨-, -, part⟩ := blockWindows_partition 0 (-1) 0x7fffffffffffffff
  obtain ⟨-, -, last, -, -, -, -, count⟩ := part (by decide)
  exact ⟨count.trans (by decide), last⟩

lemma blockWindows_ne_nil_iff {start : UInt64} :
    blockWindows start stop maxRange ≠ [] ↔ start ≤ stop := by
  constructor
  · intro some_window
    by_contra h
    exact some_window (blockWindows_eq_nil (UInt64.not_le.1 h))
  · intro h none
    have tiles : Tiles start.toNat (stop.toNat + 1) (blockWindows start stop maxRange) :=
      tiles_blockWindows h
    rw [none, Tiles.nil_iff] at tiles
    rw [UInt64.le_iff_toNat_le] at h
    omega

/-- The first so many windows are the beginning of all of them. -/
theorem firstBlockWindows_eq (start stop maxRange : UInt64) (limit : Nat) :
    firstBlockWindows start stop maxRange limit =
      ((blockWindows start stop maxRange).take limit,
        decide (limit < (blockWindows start stop maxRange).length)) := by
  induction limit generalizing start with
  | zero =>
    have others : 0 < (blockWindows start stop maxRange).length ↔ start ≤ stop :=
      List.length_pos_iff.trans blockWindows_ne_nil_iff
    rw [firstBlockWindows, List.take_zero, decide_eq_decide.2 others]
  | succ limit ih =>
    rw [firstBlockWindows, blockWindows]
    by_cases hs : start ≤ stop
    · rw [if_pos hs, dif_pos hs]
      by_cases hl : (Window.startingAt stop (windowSize maxRange) start).last < stop
      · simp [hl, ih]
      · simp [hl]
    · simp [hs]

end Sizes

end VaultIndex
