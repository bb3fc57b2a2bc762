import VaultIndex.Chain.Config
import VaultIndex.Rpc.Basic

/-!
# Logs over JSON-RPC

The newest block and the logs of a window, as a node answers for them.
-/

namespace VaultIndex

open Json (Reader Record)

namespace Json

/-- A quantity of 64 bits, as a text or as a number. -/
def quantity64 : Reader UInt64
  | number written => word64 (number written)
  | v => textual (fun s => (Quantity.read? 64 s).map UInt64.ofBitVec) v

/-- A byte string, as hexadecimal digits or as a list of numbers. -/
def byteString : Reader (List UInt8)
  | array items closed => do
    let numbers ← list natural (array items closed)
    if numbers.all (· < 256) then return numbers.map UInt8.ofNat else throw .malformed
  | v => textual Hex.readBytes? v

end Json

namespace NodeLog

/-- A log from the fields of its JSON form, of which some only have to be well formed. -/
def ofFields (_address : Address) (topics : List Hash) (data : List UInt8)
    (_blockHash : Option Hash) (block : Option UInt64) (_timestamp : Option UInt64)
    (txHash : Option Hash) (txIndex logIndex : Option UInt64) (_removed : Bool) : NodeLog :=
  { topics, data, block, txHash, txIndex, logIndex }

def record : Record NodeLog :=
  (Record.make ofFields)
    |>.required "address" Address.reader
    |>.required "topics" (Json.list Hash.reader)
    |>.required "data" Json.byteString
    |>.withDefault "blockHash" (Json.optional Hash.reader) none
    |>.required "blockNumber" (Json.optional Json.quantity64)
    |>.withDefault "blockTimestamp" (Json.optional Json.quantity64) none
    |>.withDefault "transactionHash" (Json.optional Hash.reader) none
    |>.required "transactionIndex" (Json.optional Json.quantity64)
    |>.required "logIndex" (Json.optional Json.quantity64)
    |>.withDefault "removed" Json.boolean false

/-- Reads a log from an object. -/
def reader : Reader NodeLog
  | .object members closed => record.reader (.object members closed)
  | _ => .error .malformed

end NodeLog

namespace RpcNode

variable {m : Type → Type} [Monad m]

/-- Asks for a value. -/
def ask {α : Type} (node : RpcNode m) (operation : String) (timeout : Duration)
    (request : RpcRequest) (read : RpcReply → Except RpcFailure α) :
    m (Except ChainError α) := do
  return (read (← node request)).mapError (RpcFailure.chainError operation timeout)

/-- A node as a source of logs. -/
def logNode (node : RpcNode m) (timeout : Duration) : LogNode m where
  headBlock := node.ask RpcRequest.blockNumber.method timeout .blockNumber
    (RpcReply.read Json.quantity64)
  logs query := node.ask (RpcRequest.getLogs query).method timeout (.getLogs query)
    (RpcReply.read (Json.list NodeLog.reader))

/-- The events of a vault, as a node answers for them. -/
def eventSource (node : RpcNode m) (config : ChainConfig) : EventSource m :=
  (node.logNode config.rpcTimeout).events config.maxBlockRange

end RpcNode

end VaultIndex
