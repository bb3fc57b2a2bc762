import VaultIndex.Block.Window
import VaultIndex.Event.Log

/-!
# Event sources

Where the events of a vault come from. A node is asked for its logs window by window; the events
then are those of one long answer (`blockWindows`), up to the first window that is refused.
-/

namespace VaultIndex

/-- Which events are wanted. -/
structure EventFilter where
  address : Address
  kind : EventKind
  fromBlock : UInt64
  /-- `none` for the newest block. -/
  toBlock : Option UInt64
deriving DecidableEq, Inhabited

/-- What a source yields. -/
inductive StreamItem where
  | event (e : RawEvent)
  /-- A log that could not be read, or a request that failed. -/
  | failure (cause : ChainError)
  /-- The reading of the source breaks down. -/
  | breakdown
deriving DecidableEq, Inhabited

/-- A place where events come from; a request may change what later ones yield, as far as `m`
admits. -/
abbrev EventSource (m : Type → Type) := EventFilter → m (List StreamItem)

/-! ### Logs of a node -/

/-- Which logs are asked for at once. -/
structure LogQuery where
  address : Address
  topic : Hash
  window : Window
deriving DecidableEq, Inhabited

/-- A node that knows the newest block and the logs of every block. -/
structure LogNode (m : Type → Type) where
  headBlock : m (Except ChainError UInt64)
  logs : LogQuery → m (Except ChainError (List NodeLog))

/-- The event that a log holds, or why it holds none. -/
def StreamItem.ofLog (kind : EventKind) (log : NodeLog) : StreamItem :=
  match log.event kind with
  | .ok e => event e
  | .error cause => failure cause

/-- The logs that a filter wants of a window. -/
def EventFilter.query (filter : EventFilter) (window : Window) : LogQuery :=
  ⟨filter.address, filter.kind.signature, window⟩

namespace LogNode

variable {m : Type → Type} [Monad m]

/-- The events of the blocks from `start` to `stop`, window by window; the first window that is
refused is the last one to be asked for. -/
def eventsFrom (node : LogNode m) (filter : EventFilter) (stop maxRange start : UInt64) :
    m (List StreamItem) :=
  if _h : start ≤ stop then
    let w := Window.startingAt stop (windowSize maxRange) start
    do
      match ← node.logs (filter.query w) with
      | .error cause => return [.failure cause]
      | .ok logs =>
        let items := logs.map (StreamItem.ofLog filter.kind)
        if _hl : w.last < stop then
          return items ++ (← node.eventsFrom filter stop maxRange (w.last + 1))
        else return items
  else return []
termination_by stop.toNat + 1 - start.toNat
decreasing_by exact Window.left_lt _h (windowSize_pos maxRange) _hl

/-- The events that a filter wants, up to the newest block where it names no last one. -/
def events (node : LogNode m) (maxRange : UInt64) : EventSource m := fun filter => do
  match filter.toBlock with
  | some stop => node.eventsFrom filter stop maxRange filter.fromBlock
  | none =>
    match ← node.headBlock with
    | .ok stop => node.eventsFrom filter stop maxRange filter.fromBlock
    | .error cause => return [.failure cause]

end LogNode

end VaultIndex
