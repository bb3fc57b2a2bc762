import VaultIndex.Chain.Error
import VaultIndex.Event.Basic

/-!
# Logs

What a node returns for an event, and how the event is read out of it. A log holds a fee event if
its only topic is the event's signature and its data start with the new fee.
-/

namespace VaultIndex

/-- A log; a log that is still pending has no place on the chain. -/
structure NodeLog where
  topics : List Hash
  data : List UInt8
  block : Option UInt64 := none
  txHash : Option Hash := none
  txIndex : Option UInt64 := none
  logIndex : Option UInt64 := none
deriving DecidableEq, Inhabited

/-- An event read out of a log, wherever the log stands. -/
structure RawEvent where
  block : Option UInt64 := none
  txHash : Option Hash := none
  txIndex : Option UInt64 := none
  logIndex : Option UInt64 := none
  value : U256
deriving DecidableEq, Inhabited

/-- The record of an event whose place is fully known. -/
def RawEvent.located? (e : RawEvent) (kind : EventKind) : Option EventRecord := do
  return { kind, txHash := ← e.txHash, block := ← e.block, txIndex := ← e.txIndex,
           logIndex := ← e.logIndex, value := e.value }

/-- Why no event of a kind can be read out of a log. -/
inductive LogFault where
  | topicCount
  | signature (found : Hash) (kind : EventKind)
  | tooShort
deriving DecidableEq

namespace LogFault

def message : LogFault → String
  | topicCount => "topic list length mismatch"
  | signature found kind =>
    "invalid signature hash for event \"" ++ kind.declaration ++ "\": got " ++ found.text ++
      ", expected " ++ kind.signature.text
  | tooShort => "ABI decoding failed: buffer overrun while deserializing"

end LogFault

/-- The value of a log with the given topics and data, as an event of a kind. -/
def EventKind.value (kind : EventKind) (topics : List Hash) (data : List UInt8) :
    Except LogFault U256 :=
  match topics with
  | [topic] =>
    if topic = kind.signature then
      match U256.ofBytes? data with
      | some value => .ok value
      | none => .error .tooShort
    else .error (.signature topic kind)
  | _ => .error .topicCount

/-- The event of a kind that a log holds. -/
def NodeLog.event (log : NodeLog) (kind : EventKind) : Except ChainError RawEvent :=
  match kind.value log.topics log.data with
  | .ok value =>
    .ok { block := log.block, txHash := log.txHash, txIndex := log.txIndex,
          logIndex := log.logIndex, value }
  | .error fault => .error (.decode fault.message)

end VaultIndex
