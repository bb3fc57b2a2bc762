import VaultIndex.Proofs.Accounting
import VaultIndex.Proofs.BrokenStreams

/-!
# What becomes of logs

A log of an event carries the bytes of a word behind the event's signature; any other log is
malformed. What becomes of a log is a matter of the log alone (`EventKind.handles_iff`): of those
that a node answers each one makes a record, is passed over or is counted as a failure, whatever
stands around it (`RpcNode.logs_taken_in_one_by_one`).
-/

namespace VaultIndex

/-! ### Words as bytes -/

namespace Hex

lemma natOfBytes_append_singleton (bytes : List UInt8) (b : UInt8) :
    natOfBytes (bytes ++ [b]) = 256 * natOfBytes bytes + b.toNat := by simp [natOfBytes]

@[simp] lemma length_bytesOfNat (width n : Nat) : (bytesOfNat width n).length = width := by
  induction width generalizing n with
  | zero => rfl
  | succ width ih => rw [bytesOfNat, List.length_append, ih, List.length_singleton]

lemma natOfBytes_lt (bytes : List UInt8) : natOfBytes bytes < 256 ^ bytes.length := by
  induction bytes using List.reverseRecOn with
  | nil => decide
  | append_singleton bytes b ih =>
    have byte := b.toNat_lt
    rw [natOfBytes_append_singleton, List.length_append, List.length_singleton, Nat.pow_succ]
    omega

lemma natOfBytes_bytesOfNat {width n : Nat} (h : n < 256 ^ width) :
    natOfBytes (bytesOfNat width n) = n := by
  induction width generalizing n with
  | zero =>
    rw [Nat.pow_zero, Nat.lt_one_iff] at h
    rw [h]
    rfl
  | succ width ih =>
    have front : n / 256 < 256 ^ width := Nat.div_lt_of_lt_mul (by rwa [Nat.pow_succ'] at h)
    have last : (UInt8.ofNat (n % 256)).toNat = n % 256 := by simp
    rw [bytesOfNat, natOfBytes_append_singleton, ih front, last]
    omega

lemma bytesOfNat_natOfBytes (bytes : List UInt8) :
    bytesOfNat bytes.length (natOfBytes bytes) = bytes := by
  induction bytes using List.reverseRecOn with
  | nil => rfl
  | append_singleton bytes b ih =>
    have byte := b.toNat_lt
    have front : (256 * natOfBytes bytes + b.toNat) / 256 = natOfBytes bytes := by omega
    have last : (256 * natOfBytes bytes + b.toNat) % 256 = b.toNat := by omega
    rw [natOfBytes_append_singleton, List.length_append, List.length_singleton, bytesOfNat, front,
      last, ih, UInt8.ofNat_toNat]

end Hex

namespace U256

@[simp] lemma length_bytes (n : U256) : (bytes n).length = 32 := Hex.length_bytesOfNat 32 n.toNat

lemma two_pow_eq : 2 ^ 256 = 256 ^ 32 := by decide

/-- An amount is read from its bytes and from nothing else; more bytes may follow. -/
theorem ofBytes?_eq_some_iff {data : List UInt8} {n : U256} :
    ofBytes? data = some n ↔ ∃ rest, data = bytes n ++ rest := by
  rw [ofBytes?]
  constructor
  · intro h
    obtain ⟨long, read⟩ := Option.ite_none_right_eq_some.1 h
    have width : (data.take 32).length = 32 := List.length_take_of_le long
    have small := Hex.natOfBytes_lt (data.take 32)
    have whole := Hex.bytesOfNat_natOfBytes (data.take 32)
    rw [width] at whole
    rw [width, ← two_pow_eq] at small
    have front : bytes n = data.take 32 := by
      rw [← Option.some.inj read, bytes, BitVec.toNat_ofNat, Nat.mod_eq_of_lt small, whole]
    exact ⟨data.drop 32, by rw [front, List.take_append_drop]⟩
  · rintro ⟨rest, data_eq⟩
    have small := n.isLt
    rw [two_pow_eq] at small
    have front : data.take 32 = bytes n := by
      rw [data_eq, ← length_bytes n, List.take_left]
    have long : 32 ≤ data.length := by simp [data_eq]
    rw [if_pos long, front, bytes, Hex.natOfBytes_bytesOfNat small, BitVec.ofNat_toNat,
      BitVec.setWidth_eq]

lemma ofBytes?_eq_none_iff {data : List UInt8} : ofBytes? data = none ↔ data.length < 32 := by
  simp [ofBytes?]

end U256

/-! ### One log -/

namespace RawEvent

variable {kind : EventKind} {e : RawEvent} {r : EventRecord}

lemma located?_eq_some_iff :
    e.located? kind = some r ↔
      r.kind = kind ∧
        e = ⟨some r.block, some r.txHash, some r.txIndex, some r.logIndex, r.value⟩ := by
  constructor
  · intro made
    obtain ⟨block, txHash, txIndex, logIndex, value⟩ := e
    cases block <;> cases txHash <;> cases txIndex <;> cases logIndex <;> cases made
    exact ⟨rfl, rfl⟩
  · rintro ⟨rfl, known⟩
    rw [known]
    rfl

lemma located?_eq_none_iff :
    e.located? kind = none ↔
      e.block = none ∨ e.txHash = none ∨ e.txIndex = none ∨ e.logIndex = none := by
  obtain ⟨block, txHash, txIndex, logIndex, value⟩ := e
  cases block <;> cases txHash <;> cases txIndex <;> cases logIndex <;> simp [located?]

end RawEvent

/-- What becomes of a log when events of a kind are wanted. -/
def NodeLog.fate (kind : EventKind) (log : NodeLog) : Fate := (StreamItem.ofLog kind log).fate kind

namespace EventKind

section Values

variable {kind : EventKind} {topics : List Hash} {data : List UInt8} {value : U256}

/-- A value is read behind the signature as the only topic. -/
lemma value_eq_ok_iff :
    kind.value topics data = .ok value ↔
      topics = [kind.signature] ∧ ∃ rest, data = value.bytes ++ rest := by
  rw [← U256.ofBytes?_eq_some_iff]
  unfold EventKind.value
  split
  · next topic =>
    by_cases signed : topic = kind.signature
    · cases U256.ofBytes? data <;> simp [signed]
    · simp [signed]
  · next other =>
    simp only [reduceCtorEq, false_iff, not_and]
    exact fun signed => absurd signed (other _)

/-- No value is read where the topics are others or the data too short. -/
lemma value_eq_error_iff :
    (∃ fault, kind.value topics data = .error fault) ↔
      topics ≠ [kind.signature] ∨ data.length < 32 := by
  have unread : (∃ fault, kind.value topics data = .error fault) ↔
      ∀ value, kind.value topics data ≠ .ok value := by
    cases kind.value topics data <;> simp
  rw [unread, ← U256.ofBytes?_eq_none_iff, Option.eq_none_iff_forall_ne_some]
  simp only [ne_eq, value_eq_ok_iff, ← U256.ofBytes?_eq_some_iff, not_and, ← imp_iff_not_or]
  exact forall_comm

end Values

/-- What becomes of a log where events of a kind are wanted. A record is made of a log whose only
topic is the signature, whose data start with the bytes of a word, and whose place is known; without
the place it is passed over, and with another topic or less data it is a failure. -/
inductive Handles (kind : EventKind) : NodeLog → Fate → Prop where
  | located (value : U256) (rest : List UInt8) (block : UInt64) (txHash : Hash)
      (txIndex logIndex : UInt64) :
      Handles kind
        ⟨[kind.signature], value.bytes ++ rest, some block, some txHash, some txIndex,
          some logIndex⟩
        (.stored ⟨kind, txHash, block, txIndex, logIndex, value⟩)
  | pending {log : NodeLog} (value : U256) (rest : List UInt8)
      (topics : log.topics = [kind.signature]) (data : log.data = value.bytes ++ rest)
      (place : log.block = none ∨ log.txHash = none ∨ log.txIndex = none ∨ log.logIndex = none) :
      Handles kind log .unlocated
  | malformed {log : NodeLog} (h : log.topics ≠ [kind.signature] ∨ log.data.length < 32) :
      Handles kind log .failed

/-- What becomes of a log is told by its form, for every log and in one way. -/
theorem handles_iff {kind : EventKind} {log : NodeLog} {fate : Fate} :
    kind.Handles log fate ↔ log.fate kind = fate := by
  constructor
  · intro h
    cases h with
    | located value rest =>
      have read : kind.value [kind.signature] (value.bytes ++ rest) = .ok value :=
        value_eq_ok_iff.2 ⟨rfl, rest, rfl⟩
      simp only [NodeLog.fate, StreamItem.ofLog, NodeLog.event, read]
      rfl
    | pending value rest topics data place =>
      have read := value_eq_ok_iff.2 ⟨topics, rest, data⟩
      have unplaced :
          RawEvent.located? ⟨log.block, log.txHash, log.txIndex, log.logIndex, value⟩ kind = none :=
        RawEvent.located?_eq_none_iff.2 place
      rw [NodeLog.fate, StreamItem.ofLog, NodeLog.event, read]
      simp only [StreamItem.fate, unplaced]
    | malformed h =>
      obtain ⟨fault, unread⟩ := value_eq_error_iff.2 h
      rw [NodeLog.fate, StreamItem.ofLog, NodeLog.event, unread]
      rfl
  · rintro rfl
    obtain ⟨topics, data, block, txHash, txIndex, logIndex⟩ := log
    cases read : kind.value topics data with
    | error fault =>
      rw [NodeLog.fate, StreamItem.ofLog, NodeLog.event, read]
      exact .malformed (value_eq_error_iff.1 ⟨fault, read⟩)
    | ok value =>
      obtain ⟨signed, rest, starts⟩ := value_eq_ok_iff.1 read
      rw [NodeLog.fate, StreamItem.ofLog, NodeLog.event, read]
      cases place : RawEvent.located? ⟨block, txHash, txIndex, logIndex, value⟩ kind with
      | none =>
        simp only [StreamItem.fate, place]
        exact .pending value rest signed starts (RawEvent.located?_eq_none_iff.1 place)
      | some r =>
        simp only [StreamItem.fate, place]
        obtain ⟨rfl, known⟩ := RawEvent.located?_eq_some_iff.1 place
        obtain ⟨rfl, rfl, rfl, rfl, rfl⟩ := RawEvent.mk.inj known
        rw [signed, starts]
        exact .located r.value rest r.block r.txHash r.txIndex r.logIndex

lemma forall₂_handles_iff {kind : EventKind} {logs : List NodeLog} {fates : List Fate} :
    List.Forall₂ kind.Handles logs fates ↔ logs.map (NodeLog.fate kind) = fates := by
  have one : kind.Handles = fun log fate => NodeLog.fate kind log = fate :=
    funext₂ fun _ _ => propext handles_iff
  rw [one, ← List.forall₂_map_left_iff, List.forall₂_eq_eq_eq]

lemma signature_injective : Function.Injective signature := by
  have different : signature .managementFee ≠ signature .performanceFee := by decide
  rintro (_ | _) (_ | _) same
  · rfl
  · exact absurd same different
  · exact absurd same.symm different
  · rfl

/-- The events of one kind are malformed where the other kind is wanted. -/
lemma handles_failed_of_signature {kind other : EventKind} {log : NodeLog} (h : other ≠ kind)
    (signed : log.topics.head? = some other.signature) : kind.Handles log .failed := by
  refine .malformed (.inl fun topics => h (signature_injective ?_))
  rw [topics, List.head?_cons] at signed
  exact (Option.some.inj signed).symm

end EventKind

/-! ### Logs that a node answers -/

/-- The record that an item is stored as. -/
def Fate.record? : Fate → Option EventRecord
  | stored r => some r
  | failed | unlocated | fatal => none

lemma NodeLog.record?_fate (kind : EventKind) (log : NodeLog) :
    (log.fate kind).record? = log.record? kind := by
  rw [← StreamItem.record?_ofLog, NodeLog.fate]
  cases hf : (StreamItem.ofLog kind log).fate kind with
  | stored r => exact (StreamItem.fate_eq_stored_iff.1 hf).symm
  | failed | unlocated | fatal => exact (StreamItem.record?_eq_none (by simp [hf])).symm

namespace Polled

variable {timeout : Duration} {kind : EventKind} {wanted : List RpcRequest}
  {journal : List RpcExchange} {items : List StreamItem} {fates : List Fate}

/-- The logs of a request that was answered fail for themselves; one that came to nothing is a
single failure. -/
lemma countP_isFailure (h : Polled timeout kind wanted journal items) :
    items.countP StreamItem.isFailure =
      ((journal.flatMap (·.logs)).map (NodeLog.fate kind)).count .failed +
        if journal.any (·.fault?.isSome) then 1 else 0 := by
  induction h with
  | done => rfl
  | failed e rest h => simp [h, StreamItem.isFailure, RpcExchange.logs_of_fault h]
  | answered e h later ih =>
    have logs : (e.logs.map (StreamItem.ofLog kind)).countP StreamItem.isFailure =
        (e.logs.map (NodeLog.fate kind)).count .failed := by
      rw [List.count, List.countP_map, List.countP_map]
      apply List.countP_congr
      simp [NodeLog.fate, StreamItem.fate_eq_failed_iff]
    rw [List.countP_append, logs, ih, List.flatMap_cons, List.map_append, List.count_append,
      List.any_cons, h]
    exact (Nat.add_assoc ..).symm

lemma recordsIn_eq_of_handles (h : Polled timeout kind wanted journal items)
    (handled : List.Forall₂ kind.Handles (journal.flatMap (·.logs)) fates) :
    recordsIn kind items = fates.filterMap Fate.record? := by
  rw [← EventKind.forall₂_handles_iff.1 handled, h.recordsIn_eq, List.filterMap_map]
  apply List.filterMap_congr
  exact fun log _ => (NodeLog.record?_fate kind log).symm

/-- What a stream of a node adds to a counter. -/
lemma growth_eq (h : Polled timeout kind wanted journal items)
    (handled : List.Forall₂ kind.Handles (journal.flatMap (·.logs)) fates) (chain : ChainId)
    (c : Counter) :
    growth chain kind 0 items c =
      if c = .logQueriesFailed chain kind then
        fates.count .failed + if journal.any (·.fault?.isSome) then 1 else 0
      else if c = .eventsHarvested chain kind then (fates.filterMap Fate.record?).length
      else 0 := by
  have whole : takenIn items = items := List.takeWhile_eq_self_iff.2 (by simpa using h.ne_breakdown)
  have unbroken : .breakdown ∉ items := fun broken => h.ne_breakdown _ broken rfl
  simp only [growth, whole, unbroken, not_false_eq_true, and_true, Nat.zero_add,
    h.countP_isFailure, EventKind.forall₂_handles_iff.1 handled, h.recordsIn_eq_of_handles handled]

end Polled

namespace RpcNode

variable {σ : Type}

/-- Every log that a node answers is handled for itself, by its form alone, and the events of the
other kind are malformed. What is gathered before stays, and behind it comes a record for each log
that makes one, in the order of the logs. Each malformed log is counted as a failure, and so is a
request that comes to nothing; the records are counted as harvested, and no other counter changes.
-/
theorem logs_taken_in_one_by_one (node : RpcNode (StateM σ)) (config : ChainConfig)
    (filter : EventFilter) (s : σ) :
    let journal := (node.journaled.eventSource config filter [] s).1.2
    let logs := journal.flatMap (·.logs)
    (∃ fates, List.Forall₂ filter.kind.Handles logs fates) ∧
    (∀ other ≠ filter.kind, ∀ log ∈ logs, log.topics.head? = some other.signature →
      filter.kind.Handles log .failed) ∧
    ∀ fates, List.Forall₂ filter.kind.Handles logs fates → ∀ chain gathered tally,
      let run := (filterVaultEvents chain (node.eventSource config) filter gathered tally s).1
      let records := fates.filterMap Fate.record?
      run.1.2 = records.length ∧
      (∀ k, run.1.1.get? k =
        if under filter.address records k = [] then gathered.get? k
        else some ((gathered.get? k).getD [] ++ under filter.address records k)) ∧
      ∀ c, run.2.total c = tally.total c +
        if c = .logQueriesFailed chain filter.kind then
          fates.count .failed + if journal.any (·.fault?.isSome) then 1 else 0
        else if c = .eventsHarvested chain filter.kind then records.length
        else 0 := by
  obtain ⟨journal, items, s', polled, asks⟩ := asks_eventSource node filter config s
  rw [asks.journaled [], List.nil_append]
  refine ⟨⟨_, EventKind.forall₂_handles_iff.2 rfl⟩,
    fun other h log _ signed => EventKind.handles_failed_of_signature h signed,
    fun fates handled chain gathered tally => ?_⟩
  have records := polled.recordsIn_eq_of_handles handled
  intro run
  let x : Intake := Intake.takeAll chain filter ⟨gathered, tally, 0⟩ items
  have ran : run = ((x.gathered, x.added), x.tally) := by
    have stream : (node.eventSource config filter s).1 = items := by rw [asks.plain]
    simp only [x, ← stream]
    rfl
  rw [ran]
  refine ⟨?_, fun k => ?_, fun c => ?_⟩
  · rw [Intake.added_takeAll, records, Nat.zero_add]
  · rw [Intake.gathered_takeAll, records, Gathered.get?_pushAll]
  · rw [Intake.total_takeAll, polled.growth_eq handled]

/-- A node answers with three events and, between them, an event of the other kind, a pending one, a
log without topics and one with too few data. Three records join the one that is there, and three
failures are counted. -/
theorem logs_taken_in_one_by_one_of_mixture :
    let bytes (width n : Nat) : Json :=
      .ofList (fun b => .ofNat b.toNat) (Hex.bytesOfNat width n)
    let largest : U256 := .allOnes 256
    let topic (kind : EventKind) : Json := bytes 32 kind.signature.word.toNat
    let log (topics : List Json) (data : Json) (place : Option (UInt64 × UInt64)) : Json :=
      .ofFields
        [("address", bytes 20 7),
          ("topics", .ofItems topics),
          ("data", data),
          ("blockNumber", .ofOption .ofWord64 (place.map (·.1))),
          ("transactionHash", .ofOption (bytes 32) (place.map fun _ => 9)),
          ("transactionIndex", .ofOption .ofWord64 (place.map fun _ => 0)),
          ("logIndex", .ofOption .ofWord64 (place.map (·.2)))]
    let logs : Json := .ofItems
      [log [topic .managementFee] (bytes 32 largest.toNat) (some (3, 1)),
        log [topic .performanceFee] (bytes 32 6) (some (3, 2)),
        log [topic .managementFee] (bytes 32 7) (some (3, 4)),
        log [topic .managementFee] (bytes 32 8) none,
        log [] (bytes 32 9) (some (3, 5)),
        log [topic .managementFee] (bytes 31 10) (some (3, 6)),
        log [topic .managementFee] (bytes 32 258) (some (4, 0))]
    let node : RpcNode (StateM Unit) := fun _ s => (.result logs, s)
    let config : ChainConfig :=
      { chainId := 1, name := "Ethereum", rpcUrl := default, maxBlockRange := 10 }
    let filter : EventFilter := ⟨⟨7⟩, .managementFee, 0, some 9⟩
    let record (block logIndex : UInt64) (value : U256) : EventRecord :=
      ⟨.managementFee, ⟨9⟩, block, 0, logIndex, value⟩
    let gathered : Gathered := .ofList [(⟨⟨7⟩, 3⟩, [record 3 0 5])]
    let run := (filterVaultEvents 1 (node.eventSource config) filter gathered {} ()).1
    run.1.2 = 3 ∧
      run.1.1.get? ⟨⟨7⟩, 3⟩ = some [record 3 0 5, record 3 1 largest, record 3 4 7] ∧
      run.1.1.get? ⟨⟨7⟩, 4⟩ = some [record 4 0 258] ∧
      run.2.total (.logQueriesFailed 1 .managementFee) = 3 ∧
      run.2.total (.eventsHarvested 1 .managementFee) = 3 := by
  intro bytes largest topic log logs node config filter record gathered
  obtain ⟨-, -, taken⟩ := node.logs_taken_in_one_by_one config filter ()
  let fates : List Fate :=
    [.stored (record 3 1 largest), .failed, .stored (record 3 4 7), .unlocated, .failed,
      .failed, .stored (record 4 0 258)]
  let journal := (node.journaled.eventSource config filter [] ()).1.2
  obtain ⟨answered, handled⟩ : journal.any (·.fault?.isSome) = false ∧
      (journal.flatMap (·.logs)).map (NodeLog.fate filter.kind) = fates := by decide +kernel
  obtain ⟨added, records, totals⟩ :=
    taken fates (EventKind.forall₂_handles_iff.2 handled) 1 gathered {}
  refine ⟨added, (records _).trans ?_, (records _).trans ?_, (totals _).trans ?_,
    (totals _).trans ?_⟩
  · decide +kernel
  · decide +kernel
  · rw [answered]
    decide +kernel
  · decide +kernel

end RpcNode

end VaultIndex
