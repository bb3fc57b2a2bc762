import VaultIndex.Harvest.Intake
import VaultIndex.Proofs.Windows

/-!
# Asking an honest node

A node that answers every request from one and the same chain gives the same events in whatever
windows a range is asked for: they are those of a single request for the whole range, since the
logs of a range are those of its windows, one window after the other (`LogChain.answer_tiles`).
-/

namespace VaultIndex

/-- The logs of a chain in the order of the chain, each with the contract that wrote it. -/
structure LogChain where
  logs : List (Address × NodeLog)
  ordered : logs.Pairwise fun a b => ∀ x ∈ a.2.block, ∀ y ∈ b.2.block, x ≤ y

/-- A log is of the wanted contract and event and stands in one of the wanted blocks. -/
def LogQuery.wants (query : LogQuery) (entry : Address × NodeLog) : Bool :=
  entry.1 = query.address && entry.2.topics.head? = some query.topic &&
    entry.2.block.any fun block => query.window.first ≤ block && block ≤ query.window.last

namespace LogChain

/-- All logs that are asked for, in the order of the chain. -/
def answer (c : LogChain) (query : LogQuery) : List NodeLog :=
  (c.logs.filter query.wants).map (·.2)

/-- A node that knows a chain up to its newest block. -/
def node (c : LogChain) (head : UInt64) : LogNode Id where
  headBlock := pure (.ok head)
  logs query := pure (.ok (c.answer query))

end LogChain

/-! ### Splitting a range -/

/-- A log stands in a block from `start` up to, but without, `stop`. -/
def NodeLog.within (start stop : Nat) (log : NodeLog) : Bool :=
  log.block.any fun block => start ≤ block.toNat && block.toNat < stop

lemma NodeLog.within_iff {start stop : Nat} {log : NodeLog} :
    log.within start stop = true ↔
      ∃ block, log.block = some block ∧ start ≤ block.toNat ∧ block.toNat < stop := by
  simp [within, Option.any_eq_true]

/-- Where nothing of the first part comes behind anything of the second one, a filtered list falls
into the two parts. -/
lemma filter_eq_append {α : Type} {p p₁ p₂ : α → Bool} {l : List α}
    (hp : ∀ a, p a = (p₁ a || p₂ a)) (hd : ∀ a, p₁ a = true → p₂ a = false)
    (ho : l.Pairwise fun a b => p₂ a = true → p₁ b = false) :
    l.filter p = l.filter p₁ ++ l.filter p₂ := by
  induction l with
  | nil => rfl
  | cons a rest ih =>
    obtain ⟨ha, hr⟩ := List.pairwise_cons.1 ho
    have split := ih hr
    cases h₁ : p₁ a with
    | true => simp [hp, h₁, hd a h₁, split]
    | false =>
      cases h₂ : p₂ a with
      | true =>
        -- `a` is of the second part, so nothing of the first one stands behind it
        have behind : rest.filter p₁ = [] := by
          rw [List.filter_eq_nil_iff]
          intro b hb
          simp [ha b hb h₂]
        rw [behind, List.nil_append] at split
        simp [hp, h₁, h₂, split, behind]
      | false => simp [hp, h₁, h₂, split]

namespace LogChain

variable {entries : List (Address × NodeLog)} {start mid stop : Nat}

lemma filter_within_append
    (ho : entries.Pairwise fun a b => ∀ x ∈ a.2.block, ∀ y ∈ b.2.block, x ≤ y)
    (h₁ : start ≤ mid) (h₂ : mid ≤ stop) :
    entries.filter (·.2.within start stop) =
      entries.filter (·.2.within start mid) ++ entries.filter (·.2.within mid stop) := by
  refine filter_eq_append (fun a => Bool.eq_iff_iff.2 ?_) (fun a ha => ?_)
    (ho.imp fun {a b} hab ha => ?_)
  · rw [Bool.or_eq_true, NodeLog.within_iff, NodeLog.within_iff, NodeLog.within_iff]
    constructor
    · rintro ⟨x, hx, hs, ht⟩
      by_cases hm : x.toNat < mid
      · exact .inl ⟨x, hx, hs, hm⟩
      · exact .inr ⟨x, hx, Nat.not_lt.1 hm, ht⟩
    · rintro (⟨x, hx, hs, hm⟩ | ⟨x, hx, hm, ht⟩)
      · exact ⟨x, hx, hs, Nat.lt_of_lt_of_le hm h₂⟩
      · exact ⟨x, hx, Nat.le_trans h₁ hm, ht⟩
  · rw [← Bool.not_eq_true, NodeLog.within_iff]
    obtain ⟨x, hx, -, hm⟩ := NodeLog.within_iff.1 ha
    rintro ⟨y, hy, hm', -⟩
    rw [hx] at hy
    cases hy
    omega
  · rw [← Bool.not_eq_true, NodeLog.within_iff]
    obtain ⟨x, hx, hm, -⟩ := NodeLog.within_iff.1 ha
    rintro ⟨y, hy, -, hm'⟩
    have hxy := UInt64.le_iff_toNat_le.1 (hab x hx y hy)
    omega

/-- The logs of a range are those of its windows, one window after the other. -/
lemma filter_within_tiles {ws : List Window}
    (ho : entries.Pairwise fun a b => ∀ x ∈ a.2.block, ∀ y ∈ b.2.block, x ≤ y)
    (ht : Tiles start stop ws) :
    entries.filter (·.2.within start stop) =
      ws.flatMap fun w => entries.filter (·.2.within w.first.toNat (w.last.toNat + 1)) := by
  induction ht with
  | nil start =>
    rw [List.flatMap_nil, List.filter_eq_nil_iff]
    intro a _ ha
    obtain ⟨x, -, hs, ht⟩ := NodeLog.within_iff.1 ha
    omega
  | cons valid tail ih =>
    rw [UInt64.le_iff_toNat_le] at valid
    rw [filter_within_append ho (by omega) tail.start_le, ih, List.flatMap_cons]

/-! ### One answer for all windows -/

lemma answer_query (c : LogChain) (filter : EventFilter) (w : Window) :
    c.answer (filter.query w) =
      ((c.logs.filter fun e =>
        e.1 = filter.address && e.2.topics.head? = some filter.kind.signature).filter
          (·.2.within w.first.toNat (w.last.toNat + 1))).map (·.2) := by
  rw [answer, List.filter_filter]
  congr 2
  funext e
  have blocks : (e.2.block.any fun block => decide (w.first ≤ block) && decide (block ≤ w.last)) =
      e.2.within w.first.toNat (w.last.toNat + 1) := by
    simp only [NodeLog.within, UInt64.le_iff_toNat_le, Nat.lt_succ_iff]
  rw [Bool.and_comm, ← blocks]
  rfl

theorem answer_tiles (c : LogChain) (filter : EventFilter) {range : Window} {ws : List Window}
    (ht : Tiles range.first.toNat (range.last.toNat + 1) ws) :
    c.answer (filter.query range) = ws.flatMap fun w => c.answer (filter.query w) := by
  simp only [answer_query]
  rw [filter_within_tiles (c.ordered.filter _) ht, List.map_flatMap]

theorem answer_eq_nil (c : LogChain) (filter : EventFilter) {range : Window}
    (h : range.last < range.first) : c.answer (filter.query range) = [] := by
  rw [UInt64.lt_iff_toNat_lt] at h
  rw [answer_query, List.map_eq_nil_iff, List.filter_eq_nil_iff]
  intro e _ he
  obtain ⟨x, -, hf, hl⟩ := NodeLog.within_iff.1 he
  omega

/-! ### The stream of an honest node -/

/-- Asking for windows makes one request for each, and yields the events of all of them. -/
lemma itemsOver_recorded (c : LogChain) (head : UInt64) (filter : EventFilter) (ws : List Window)
    (requests : List RpcRequest) :
    (c.node head).recorded.itemsOver filter ws requests =
      ((ws.flatMap fun w => c.answer (filter.query w)).map (StreamItem.ofLog filter.kind),
        requests ++ ws.map fun w => .getLogs (filter.query w)) := by
  induction ws generalizing requests with
  | nil => simp [LogNode.itemsOver]; rfl
  | cons w rest ih =>
    have step : (c.node head).recorded.itemsOver filter (w :: rest) requests =
        let r := (c.node head).recorded.itemsOver filter rest
          (requests ++ [.getLogs (filter.query w)])
        ((c.answer (filter.query w)).map (StreamItem.ofLog filter.kind) ++ r.1, r.2) := rfl
    rw [step, ih]
    simp

lemma itemsOver_node (c : LogChain) (head : UInt64) (filter : EventFilter) (ws : List Window) :
    (c.node head).itemsOver filter ws =
      (ws.flatMap fun w => c.answer (filter.query w)).map (StreamItem.ofLog filter.kind) := by
  induction ws with
  | nil => rfl
  | cons w rest ih =>
    have step : (c.node head).itemsOver filter (w :: rest) =
        let r : List StreamItem := (c.node head).itemsOver filter rest
        (c.answer (filter.query w)).map (StreamItem.ofLog filter.kind) ++ r := rfl
    rw [step, ih, List.flatMap_cons, List.map_append]

/-- The windows of a range give the logs that one request for the whole range gives. -/
lemma flatMap_blockWindows (c : LogChain) (filter : EventFilter) (stop maxRange : UInt64) :
    ((blockWindows filter.fromBlock stop maxRange).flatMap fun w => c.answer (filter.query w)) =
      c.answer (filter.query ⟨filter.fromBlock, stop⟩) := by
  by_cases h : filter.fromBlock ≤ stop
  · refine (c.answer_tiles filter ?_).symm
    exact tiles_blockWindows h
  · rw [blockWindows_eq_nil (UInt64.not_le.1 h), List.flatMap_nil,
      c.answer_eq_nil filter (UInt64.not_le.1 h)]

/-- The stream of an honest node is what one request for the whole range gives, whatever the size of
its windows. -/
lemma events_node (c : LogChain) (head maxRange : UInt64) (filter : EventFilter) :
    (c.node head).events maxRange filter =
      (c.answer (filter.query ⟨filter.fromBlock, filter.toBlock.getD head⟩)).map
        (StreamItem.ofLog filter.kind) := by
  have paged : ∀ stop, (c.node head).eventsFrom filter stop maxRange filter.fromBlock =
      (c.answer (filter.query ⟨filter.fromBlock, stop⟩)).map (StreamItem.ofLog filter.kind) := by
    intro stop
    rw [LogNode.eventsFrom_eq_itemsOver, itemsOver_node, flatMap_blockWindows]
  cases ht : filter.toBlock with
  | none =>
    have step : (c.node head).events maxRange filter =
        (c.node head).eventsFrom filter head maxRange filter.fromBlock := by
      simp only [LogNode.events, ht]
      rfl
    rw [step, paged]
    rfl
  | some stop =>
    have step : (c.node head).events maxRange filter =
        (c.node head).eventsFrom filter stop maxRange filter.fromBlock := by
      simp only [LogNode.events, ht]
    rw [step, paged]
    rfl

/-- The requests for the events of a range are those for its windows, behind one for the newest
block where the filter names no last one. -/
lemma events_recorded (c : LogChain) (head maxRange : UInt64) (filter : EventFilter) :
    (c.node head).recorded.events maxRange filter [] =
      ((c.node head).events maxRange filter,
        (if filter.toBlock = none then [.blockNumber] else []) ++
          (blockWindows filter.fromBlock (filter.toBlock.getD head) maxRange).map
            fun w => .getLogs (filter.query w)) := by
  have paged : ∀ stop requests,
      (c.node head).recorded.eventsFrom filter stop maxRange filter.fromBlock requests =
        ((c.answer (filter.query ⟨filter.fromBlock, stop⟩)).map (StreamItem.ofLog filter.kind),
          requests ++ (blockWindows filter.fromBlock stop maxRange).map
            fun w => .getLogs (filter.query w)) := by
    intro stop requests
    rw [LogNode.eventsFrom_eq_itemsOver, itemsOver_recorded, flatMap_blockWindows]
  rw [events_node]
  cases ht : filter.toBlock with
  | none =>
    have step : (c.node head).recorded.events maxRange filter [] =
        (c.node head).recorded.eventsFrom filter head maxRange filter.fromBlock [.blockNumber] := by
      simp only [LogNode.events, ht]
      rfl
    rw [step, paged]
    rfl
  | some stop =>
    have step : (c.node head).recorded.events maxRange filter [] =
        (c.node head).recorded.eventsFrom filter stop maxRange filter.fromBlock [] := by
      simp only [LogNode.events, ht]
    rw [step, paged]
    rfl

/-- The stream of an honest node, and what is taken in from it, do not depend on the size of the
windows in which it is asked: the stream is what one request for the whole range gives. Where the
range is empty no logs are asked for. -/
theorem events_eq_single_request (c : LogChain) (head maxRange : UInt64) (filter : EventFilter) :
    (c.node head).events maxRange filter =
        (c.answer (filter.query ⟨filter.fromBlock, filter.toBlock.getD head⟩)).map
          (StreamItem.ofLog filter.kind) ∧
      (∀ (otherRange : UInt64) (chain : ChainId) (gathered : Gathered) (tally : Tally),
        filterVaultEvents chain ((c.node head).events maxRange) filter gathered tally =
          filterVaultEvents chain ((c.node head).events otherRange) filter gathered tally) ∧
      ((c.node head).recorded.events maxRange filter []).1 = (c.node head).events maxRange filter ∧
      (filter.toBlock.getD head < filter.fromBlock →
        (c.node head).events maxRange filter = [] ∧
          ∀ query, .getLogs query ∉ ((c.node head).recorded.events maxRange filter []).2) := by
  refine ⟨c.events_node head maxRange filter, ?_, by rw [events_recorded], fun hempty => ⟨?_, ?_⟩⟩
  · intro otherRange chain gathered tally
    have same : (c.node head).events maxRange filter = (c.node head).events otherRange filter := by
      rw [events_node, events_node]
    simp only [filterVaultEvents, same]
  · rw [events_node, c.answer_eq_nil filter hempty, List.map_nil]
  · intro query
    rw [events_recorded, blockWindows_eq_nil hempty]
    split <;> simp

end LogChain

end VaultIndex
