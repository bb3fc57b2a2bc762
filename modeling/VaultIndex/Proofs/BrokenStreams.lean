import Mathlib.Data.List.TakeWhile
import VaultIndex.Proofs.Gathering
import VaultIndex.Proofs.Partitions
import VaultIndex.Rpc.Logs

/-!
# Streams that break off

A node answers, refuses or keeps silent as it likes. What it is asked for the events of a filter are
the newest block, where it is wanted, and the windows of the range, one after the other, until a
request comes to nothing. The stream is what was answered before, with this failure at its end
(`RpcNode.events_until_failure`).
-/

namespace VaultIndex

/-- A request to a node with the reply to it. -/
structure RpcExchange where
  request : RpcRequest
  reply : RpcReply

/-- Why no value of a kind can be read out of a reply. -/
def RpcReply.fault? {α : Type} (reader : Json.Reader α) (reply : RpcReply) : Option RpcFailure :=
  match reply.read reader with
  | .ok _ => none
  | .error fault => some fault

section Replies

variable {α : Type} {reader : Json.Reader α} {reply : RpcReply}

lemma RpcReply.fault?_of_ok {a : α} (read : reply.read reader = .ok a) :
    reply.fault? reader = none := by rw [fault?, read]

lemma RpcReply.fault?_of_error {fault : RpcFailure} (read : reply.read reader = .error fault) :
    reply.fault? reader = some fault := by rw [fault?, read]

end Replies

namespace RpcExchange

/-- Why the request came to nothing, if it did. -/
def fault? (e : RpcExchange) : Option RpcFailure :=
  match e.request with
  | .blockNumber => e.reply.fault? Json.quantity64
  | .getLogs _ => e.reply.fault? (Json.list NodeLog.reader)
  | .call .. => e.reply.fault? Json.byteString

/-- The failure of the chain that the request ended with, if it did. -/
def failure? (timeout : Duration) (e : RpcExchange) : Option ChainError :=
  e.fault?.map (·.chainError e.request.method timeout)

/-- The number of a block that was answered. -/
def number? (e : RpcExchange) : Option UInt64 := (e.reply.read Json.quantity64).toOption

/-- The logs that were answered. -/
def logs (e : RpcExchange) : List NodeLog :=
  match e.request with
  | .getLogs _ => (e.reply.read (Json.list NodeLog.reader)).toOption.getD []
  | .blockNumber | .call .. => []

lemma logs_of_fault {e : RpcExchange} {fault : RpcFailure} (h : e.fault? = some fault) :
    e.logs = [] := by
  obtain ⟨request, reply⟩ := e
  cases request with
  | blockNumber | call => rfl
  | getLogs query =>
    simp only [fault?, RpcReply.fault?] at h
    simp only [logs]
    split at h
    · cases h
    · next cause read => rw [read]; rfl

end RpcExchange

/-- A node that keeps a journal of what it is asked and of its replies. -/
def RpcNode.journaled {m : Type → Type} [Monad m] (node : RpcNode m) :
    RpcNode (StateT (List RpcExchange) m) := fun request => do
  let reply ← node request
  modify (· ++ [⟨request, reply⟩])
  return reply

namespace EventFilter

/-- The last block that is wanted; where it is the newest one, it is known from the first reply. -/
def lastBlock? (filter : EventFilter) (journal : List RpcExchange) : Option UInt64 :=
  filter.toBlock.or (journal.head?.bind (·.number?))

/-- The requests for the windows up to some block. -/
def windowRequests (filter : EventFilter) (maxRange stop : UInt64) : List RpcRequest :=
  (blockWindows filter.fromBlock stop maxRange).map fun w => .getLogs (filter.query w)

/-- The requests for all events that are wanted up to the last block, if that is known. -/
def requests (filter : EventFilter) (maxRange : UInt64) (last? : Option UInt64) :
    List RpcRequest :=
  (if filter.toBlock = none then [.blockNumber] else []) ++
    last?.toList.flatMap (filter.windowRequests maxRange)

lemma requests_some (filter : EventFilter) (maxRange stop : UInt64) :
    filter.requests maxRange (some stop) =
      (if filter.toBlock = none then [.blockNumber] else []) ++
        filter.windowRequests maxRange stop := by
  rw [requests, Option.toList_some, List.flatMap_singleton]

lemma nodup_windowRequests (filter : EventFilter) (maxRange stop : UInt64) :
    (filter.windowRequests maxRange stop).Nodup := by
  by_cases h : filter.fromBlock ≤ stop
  · have tiles : Tiles filter.fromBlock.toNat (stop.toNat + 1)
        (blockWindows filter.fromBlock stop maxRange) := tiles_blockWindows h
    refine List.pairwise_map.2 (tiles.pairwise_lt.imp_of_mem fun {w v} hw _ before same => ?_)
    obtain rfl : w = v := congrArg LogQuery.window (RpcRequest.getLogs.inj same)
    exact absurd (UInt64.lt_of_le_of_lt (tiles.valid w hw) before) (UInt64.lt_irrefl _)
  · rw [windowRequests, blockWindows_eq_nil (UInt64.not_le.1 h)]
    exact .nil

lemma nodup_requests (filter : EventFilter) (maxRange : UInt64) (last? : Option UInt64) :
    (filter.requests maxRange last?).Nodup := by
  have windows : (last?.toList.flatMap (filter.windowRequests maxRange)).Nodup := by
    cases last? with
    | none => exact .nil
    | some stop =>
      rw [Option.toList_some, List.flatMap_singleton]
      exact filter.nodup_windowRequests maxRange stop
  rw [requests]
  split
  · refine List.nodup_cons.2 ⟨fun asked => ?_, windows⟩
    obtain ⟨stop, -, asked⟩ := List.mem_flatMap.1 asked
    obtain ⟨w, -, same⟩ := List.mem_map.1 asked
    cases same
  · exact windows

end EventFilter

/-! ### Courses of polling -/

/-- Requests are made one after the other until one comes to nothing: those that are to be made,
what is asked and answered, and the items that come of it. -/
inductive Polled (timeout : Duration) (kind : EventKind) :
    List RpcRequest → List RpcExchange → List StreamItem → Prop where
  | done : Polled timeout kind [] [] []
  | failed (e : RpcExchange) {fault : RpcFailure} (rest : List RpcRequest)
      (h : e.fault? = some fault) :
      Polled timeout kind (e.request :: rest) [e]
        [.failure (fault.chainError e.request.method timeout)]
  | answered (e : RpcExchange) {rest : List RpcRequest} {journal : List RpcExchange}
      {items : List StreamItem} (h : e.fault? = none)
      (later : Polled timeout kind rest journal items) :
      Polled timeout kind (e.request :: rest) (e :: journal)
        (e.logs.map (StreamItem.ofLog kind) ++ items)

/-- An item that says that a request came to nothing. -/
def StreamItem.isTransientFailure : StreamItem → Bool
  | failure cause => cause.isTransient
  | event _ | breakdown => false

/-- The record that a log makes; it has to hold an event, and its place has to be fully known. -/
def NodeLog.record? (kind : EventKind) (log : NodeLog) : Option EventRecord :=
  (log.event kind).toOption.bind (·.located? kind)

section Items

variable (kind : EventKind) (log : NodeLog)

lemma RpcFailure.isTransient_chainError (fault : RpcFailure) (operation : String)
    (timeout : Duration) : (fault.chainError operation timeout).isTransient = true := by
  cases fault <;> rfl

lemma StreamItem.isTransientFailure_ofLog : (ofLog kind log).isTransientFailure = false := by
  rw [ofLog, NodeLog.event]
  cases kind.value log.topics log.data <;> rfl

lemma StreamItem.ofLog_ne_breakdown : ofLog kind log ≠ breakdown := by
  rw [ofLog]
  cases log.event kind <;> simp

lemma StreamItem.record?_ofLog : (ofLog kind log).record? kind = log.record? kind := by
  rw [ofLog, NodeLog.record?]
  cases log.event kind with
  | ok e => exact e.located?_eq_record?.symm
  | error cause => rfl

end Items

namespace Polled

variable {timeout : Duration} {kind : EventKind} {wanted : List RpcRequest}
  {journal : List RpcExchange} {items : List StreamItem}

lemma isPrefix (h : Polled timeout kind wanted journal items) :
    journal.map (·.request) <+: wanted := by
  induction h with
  | done => exact List.prefix_rfl
  | failed e rest h => exact List.cons_prefix_cons.2 ⟨rfl, List.nil_prefix⟩
  | answered e h later ih => exact List.cons_prefix_cons.2 ⟨rfl, ih⟩

lemma faultless_dropLast (h : Polled timeout kind wanted journal items) :
    ∀ e ∈ journal.dropLast, e.fault? = none := by
  induction h with
  | done | failed => exact List.forall_mem_nil _
  | @answered e rest journal items h later ih =>
    cases journal with
    | nil => exact List.forall_mem_nil _
    | cons next journal => exact List.forall_mem_cons.2 ⟨h, ih⟩

/-- The first of the requests is made in any case; if it comes to nothing, it is the only one. -/
lemma exists_first {request : RpcRequest} {rest : List RpcRequest}
    (h : Polled timeout kind (request :: rest) journal items) :
    ∃ e later, journal = e :: later ∧ e.request = request ∧
      ∀ cause, e.failure? timeout = some cause → later = [] ∧ items = [.failure cause] := by
  cases h with
  | failed e rest h =>
    refine ⟨e, [], rfl, rfl, fun cause failed => ⟨rfl, ?_⟩⟩
    rw [RpcExchange.failure?, h] at failed
    obtain rfl := Option.some.inj failed
    rfl
  | @answered e _ later _ h =>
    refine ⟨e, later, rfl, rfl, fun cause failed => ?_⟩
    rw [RpcExchange.failure?, h] at failed
    cases failed

/-- If every request was answered, all were made. -/
lemma map_request_eq (h : Polled timeout kind wanted journal items)
    (faultless : ∀ e ∈ journal, e.fault? = none) : journal.map (·.request) = wanted := by
  induction h with
  | done => rfl
  | failed e rest h => simp [faultless e (List.mem_singleton_self e)] at h
  | answered e h later ih =>
    rw [List.map_cons, ih (List.forall_mem_cons.1 faultless).2]

lemma items_eq (h : Polled timeout kind wanted journal items) :
    items = (journal.flatMap (·.logs)).map (StreamItem.ofLog kind) ++
      (journal.getLast?.bind (·.failure? timeout)).toList.map .failure := by
  induction h with
  | done => rfl
  | failed e rest h => simp [RpcExchange.logs_of_fault h, RpcExchange.failure?, h]
  | @answered e rest journal items h later ih =>
    rw [List.flatMap_cons, List.map_append, List.append_assoc]
    cases journal with
    | nil => simp [ih, RpcExchange.failure?, h]
    | cons next journal => rw [List.getLast?_cons_cons, ← ih]

lemma countP_isTransientFailure (h : Polled timeout kind wanted journal items) :
    items.countP (·.isTransientFailure) = if journal.any (·.fault?.isSome) then 1 else 0 := by
  induction h with
  | done => rfl
  | failed e rest h =>
    simp [h, StreamItem.isTransientFailure, RpcFailure.isTransient_chainError]
  | answered e h later ih =>
    have logs : (e.logs.map (StreamItem.ofLog kind)).countP (·.isTransientFailure) = 0 := by
      simp [List.countP_eq_zero, StreamItem.isTransientFailure_ofLog]
    rw [List.countP_append, logs, Nat.zero_add, ih, List.any_cons, h]
    rfl

lemma ne_breakdown (h : Polled timeout kind wanted journal items) :
    ∀ item ∈ items, item ≠ .breakdown := by
  rw [h.items_eq, List.forall_mem_append]
  constructor
  · exact List.forall_mem_map.2 fun log _ => StreamItem.ofLog_ne_breakdown kind log
  · exact List.forall_mem_map.2 fun cause _ => StreamItem.noConfusion

/-- Only what was answered makes records. -/
lemma recordsIn_eq (h : Polled timeout kind wanted journal items) :
    recordsIn kind items = (journal.flatMap (·.logs)).filterMap (NodeLog.record? kind) := by
  rw [recordsIn, List.takeWhile_eq_self_iff.2 (by simpa using h.ne_breakdown), h.items_eq,
    List.filterMap_append, List.filterMap_map, List.filterMap_map]
  have logs : StreamItem.record? kind ∘ StreamItem.ofLog kind = NodeLog.record? kind :=
    funext fun log => StreamItem.record?_ofLog kind log
  have failures : StreamItem.record? kind ∘ StreamItem.failure = fun _ => none := rfl
  rw [logs, failures, List.filterMap_none, List.append_nil]

end Polled

/-! ### Streams of a node -/

section Runs

variable {σ α β : Type} (node : RpcNode (StateM σ)) (filter : EventFilter)

/-- What is asked of a node that keeps a journal; `σ` is what its replies depend on. -/
abbrev Asking (σ α : Type) := StateT (List RpcExchange) (StateM σ) α

/-- Work with a journal and work without one come to the same from a state on, and `made` is what
the first one adds to the journal. -/
structure Asks (x : Asking σ α) (y : StateM σ α) (s : σ) (a : α) (made : List RpcExchange)
    (s' : σ) : Prop where
  journaled : ∀ j, x j s = ((a, j ++ made), s')
  plain : y s = (a, s')

namespace Asks

lemma done (a : α) (s : σ) : Asks (pure a) (pure a) s a [] s where
  journaled j := by rw [List.append_nil]; rfl
  plain := rfl

lemma bind {x : Asking σ α} {y : StateM σ α} {f : α → Asking σ β} {g : α → StateM σ β}
    {s s' s'' : σ} {a : α} {b : β} {first later : List RpcExchange} (hx : Asks x y s a first s')
    (hf : Asks (f a) (g a) s' b later s'') : Asks (x >>= f) (y >>= g) s b (first ++ later) s'' where
  journaled j := by
    have step : (x >>= f) j s = f (x j s).1.1 (x j s).1.2 (x j s).2 := rfl
    rw [step, hx.journaled, hf.journaled, List.append_assoc]
  plain := by
    have step : (y >>= g) s = g (y s).1 (y s).2 := rfl
    rw [step, hx.plain, hf.plain]

lemma map {x : Asking σ α} {y : StateM σ α} {s s' : σ} {a : α} {made : List RpcExchange}
    (hx : Asks x y s a made s') (f : α → β) :
    Asks (do return f (← x)) (do return f (← y)) s (f a) made s' := by
  have step := hx.bind (f := fun a => pure (f a)) (g := fun a => pure (f a)) (.done (f a) s')
  rwa [List.append_nil] at step

lemma ask (operation : String) (timeout : Duration) (request : RpcRequest)
    (read : RpcReply → Except RpcFailure α) (s : σ) : ∃ reply s',
    Asks (node.journaled.ask operation timeout request read)
      (node.ask operation timeout request read) s
      ((read reply).mapError (RpcFailure.chainError operation timeout)) [⟨request, reply⟩] s' :=
  ⟨(node request s).1, (node request s).2, fun _ => rfl, rfl⟩

end Asks

lemma asks_itemsOver (timeout : Duration) (ws : List Window) (s : σ) :
    ∃ journal items s',
      Polled timeout filter.kind (ws.map fun w => .getLogs (filter.query w)) journal items ∧
      Asks ((node.journaled.logNode timeout).itemsOver filter ws)
        ((node.logNode timeout).itemsOver filter ws) s items journal s' := by
  induction ws generalizing s with
  | nil => exact ⟨[], [], s, .done, .done [] s⟩
  | cons w rest ih =>
    obtain ⟨reply, s', asked⟩ := Asks.ask node (RpcRequest.getLogs (filter.query w)).method timeout
      (.getLogs (filter.query w)) (RpcReply.read (Json.list NodeLog.reader)) s
    let e : RpcExchange := ⟨.getLogs (filter.query w), reply⟩
    cases read : reply.read (Json.list NodeLog.reader) with
    | error fault =>
      rw [read] at asked
      have failed : e.fault? = some fault := RpcReply.fault?_of_error read
      exact ⟨_, _, s', .failed e _ failed, asked.bind (.done _ s')⟩
    | ok logs =>
      rw [read] at asked
      obtain ⟨journal, items, s'', polled, later⟩ := ih s'
      have answered : e.fault? = none := RpcReply.fault?_of_ok read
      have held : e.logs = logs := by simp [e, RpcExchange.logs, read, Except.toOption]
      refine ⟨_, _, s'', .answered e answered polled, ?_⟩
      rw [held]
      exact asked.bind (later.map (logs.map (StreamItem.ofLog filter.kind) ++ ·))

lemma asks_eventSource (config : ChainConfig) (s : σ) :
    ∃ journal items s',
      Polled config.rpcTimeout filter.kind
        (filter.requests config.maxBlockRange (filter.lastBlock? journal)) journal items ∧
      Asks (node.journaled.eventSource config filter) (node.eventSource config filter) s items
        journal s' := by
  have paged (stop : UInt64) (s : σ) : ∃ journal items s',
      Polled config.rpcTimeout filter.kind (filter.windowRequests config.maxBlockRange stop)
        journal items ∧
      Asks
        ((node.journaled.logNode config.rpcTimeout).eventsFrom filter stop config.maxBlockRange
          filter.fromBlock)
        ((node.logNode config.rpcTimeout).eventsFrom filter stop config.maxBlockRange
          filter.fromBlock) s items journal s' := by
    rw [LogNode.eventsFrom_eq_itemsOver, LogNode.eventsFrom_eq_itemsOver]
    exact asks_itemsOver node filter config.rpcTimeout _ s
  simp only [RpcNode.eventSource, LogNode.events]
  cases named : filter.toBlock with
  | some stop =>
    obtain ⟨journal, items, s', polled, asks⟩ := paged stop s
    refine ⟨journal, items, s', ?_, asks⟩
    rwa [EventFilter.lastBlock?, named, Option.some_or, EventFilter.requests_some,
      if_neg (by simp [named])]
  | none =>
    obtain ⟨reply, s', asked⟩ := Asks.ask node RpcRequest.blockNumber.method config.rpcTimeout
      .blockNumber (RpcReply.read Json.quantity64) s
    let e : RpcExchange := ⟨.blockNumber, reply⟩
    have first (journal : List RpcExchange) : filter.lastBlock? (e :: journal) = e.number? := by
      rw [EventFilter.lastBlock?, named]
      rfl
    cases read : reply.read Json.quantity64 with
    | error fault =>
      rw [read] at asked
      have failed : e.fault? = some fault := RpcReply.fault?_of_error read
      have unknown : e.number? = none := by simp [e, RpcExchange.number?, read, Except.toOption]
      refine ⟨[e], _, s', ?_, asked.bind (.done _ s')⟩
      rw [first, unknown, EventFilter.requests, if_pos named]
      exact .failed e _ failed
    | ok head =>
      rw [read] at asked
      obtain ⟨journal, items, s'', polled, later⟩ := paged head s'
      have answered : e.fault? = none := RpcReply.fault?_of_ok read
      have known : e.number? = some head := by simp [e, RpcExchange.number?, read, Except.toOption]
      refine ⟨e :: journal, items, s'', ?_, asked.bind later⟩
      rw [first, known, EventFilter.requests_some, if_pos named]
      exact .answered e answered polled

end Runs

namespace RpcNode

variable {σ : Type}

/-- For the events of a filter a node is asked for the newest block, where it is wanted, and then
for the windows of the range in order and each once, until a request comes to nothing; if none does,
all windows are asked for. The stream is what was answered, and at its end the failure of the
request that came to nothing. No log makes such an item. What is taken in from the stream are the
records of the logs that were answered. -/
theorem events_until_failure (node : RpcNode (StateM σ)) (config : ChainConfig)
    (filter : EventFilter) (s : σ) :
    let run := node.journaled.eventSource config filter [] s
    let items := run.1.1
    let journal := run.1.2
    let requests := journal.map (·.request)
    let wanted := filter.requests config.maxBlockRange (filter.lastBlock? journal)
    let logs := journal.flatMap (·.logs)
    node.eventSource config filter s = (items, run.2) ∧
    requests <+: wanted ∧ requests.Nodup ∧
    ((∀ e ∈ journal, e.fault? = none) → requests = wanted) ∧
    (∀ e ∈ journal.dropLast, e.fault? = none) ∧
    items = logs.map (StreamItem.ofLog filter.kind) ++
      (journal.getLast?.bind (·.failure? config.rpcTimeout)).toList.map .failure ∧
    items.countP (·.isTransientFailure) = (if journal.any (·.fault?.isSome) then 1 else 0) ∧
    (filter.toBlock = none → ∃ e later, journal = e :: later ∧ e.request = .blockNumber ∧
      ∀ cause, e.failure? config.rpcTimeout = some cause → later = [] ∧ items = [.failure cause]) ∧
    ∀ chain gathered tally c, gathered.Holds c →
      (filterVaultEvents chain (node.eventSource config) filter gathered tally s).1.1.1.Holds
        fun k => c k ++ under filter.address (logs.filterMap (NodeLog.record? filter.kind)) k := by
  obtain ⟨journal, items, s', polled, asks⟩ := asks_eventSource node filter config s
  intro run
  have ran : run = ((items, journal), s') := asks.journaled []
  rw [ran]
  refine ⟨asks.plain, polled.isPrefix, (filter.nodup_requests _ _).sublist polled.isPrefix.sublist,
    polled.map_request_eq, polled.faultless_dropLast, polled.items_eq,
    polled.countP_isTransientFailure, ?_, ?_⟩
  · intro newest
    rw [EventFilter.requests, if_pos newest] at polled
    exact polled.exists_first
  · intro chain gathered tally c holds
    have taken : (filterVaultEvents chain (node.eventSource config) filter gathered tally s).1.1.1 =
        (Intake.takeAll chain filter ⟨gathered, tally, 0⟩
          (node.eventSource config filter s).1).gathered := rfl
    rw [taken, asks.plain, ← polled.recordsIn_eq]
    exact Gathered.Holds.takeAll holds items

/-- A node answers for the first ten blocks with an event, a log without one and a pending event,
and then keeps silent. One record is taken in, and the last blocks are not asked for. -/
theorem events_until_silence :
    let bytes (width n : Nat) : Json :=
      .ofList (fun b => .ofNat b.toNat) (Hex.bytesOfNat width n)
    let signature := EventKind.managementFee.signature.word.toNat
    let log (block : Option UInt64) (data : Json) : Json := .ofFields
      [("address", bytes 20 7),
        ("topics", .ofList (bytes 32) [signature]),
        ("data", data),
        ("blockNumber", .ofOption .ofWord64 block),
        ("transactionHash", .ofOption (bytes 32) (block.map fun _ => 9)),
        ("transactionIndex", .ofOption .ofWord64 (block.map fun _ => 0)),
        ("logIndex", .ofOption .ofWord64 (block.map fun _ => 0))]
    let logs : Json := .ofItems
      [log (some 3) (bytes 32 5), log (some 4) (bytes 0 0), log none (bytes 32 6)]
    let node : RpcNode (StateM Nat) := fun _ n =>
      ([.result (.ofNat 25), .result logs].getD n .silence, n + 1)
    let config : ChainConfig :=
      { chainId := 1, name := "Ethereum", rpcUrl := default, maxBlockRange := 10 }
    let filter : EventFilter := ⟨⟨7⟩, .managementFee, 0, none⟩
    let run := node.journaled.eventSource config filter [] 0
    let taken := filterVaultEvents 1 (node.eventSource config) filter ∅ {} 0
    run.1.2.map (·.request) =
        [.blockNumber, .getLogs (filter.query ⟨0, 9⟩), .getLogs (filter.query ⟨10, 19⟩)] ∧
      run.1.1.length = 4 ∧ run.1.1.countP (·.isTransientFailure) = 1 ∧
      taken.1.1.1.get? ⟨⟨7⟩, 3⟩ = some [⟨.managementFee, ⟨9⟩, 3, 0, 0, 5⟩] := by
  intro bytes signature log logs node config filter run taken
  obtain ⟨-, -, -, -, -, -, failures, -, holds⟩ := node.events_until_failure config filter 0
  obtain ⟨requests, length, silent, records⟩ :
      run.1.2.map (·.request) =
          [.blockNumber, .getLogs (filter.query ⟨0, 9⟩), .getLogs (filter.query ⟨10, 19⟩)] ∧
        run.1.1.length = 4 ∧ run.1.2.any (·.fault?.isSome) = true ∧
        (run.1.2.flatMap (·.logs)).filterMap (NodeLog.record? .managementFee) =
          [⟨.managementFee, ⟨9⟩, 3, 0, 0, 5⟩] := by decide +kernel
  refine ⟨requests, length, failures.trans (if_pos silent), ?_⟩
  have held := holds 1 ∅ {} _ .empty ⟨⟨7⟩, 3⟩
  subst run
  rw [records] at held
  exact held

end RpcNode

end VaultIndex
