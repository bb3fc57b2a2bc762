import VaultIndex.Chain.Error
import VaultIndex.Event.Source
import VaultIndex.Evm.Codec
import VaultIndex.Json.Record

/-!
# Requests to a node

What a node is asked over JSON-RPC, in which ways it can answer, and how an answer becomes a value
or a failure of the chain.
-/

namespace VaultIndex

inductive RpcRequest where
  | blockNumber
  | getLogs (query : LogQuery)
  /-- A contract is asked for the result of a call. -/
  | call (target : Address) (input : List UInt8)
deriving DecidableEq, Inhabited

/-- The name of a request's method. -/
def RpcRequest.method : RpcRequest → String
  | blockNumber => "eth_blockNumber"
  | getLogs _ => "eth_getLogs"
  | call .. => "eth_call"

inductive RpcReply where
  | result (value : Json)
  | refusal (code : Int) (message : String) (data : Option Json)
  /-- No answer comes in time. -/
  | silence
  | httpError (status : Nat) (body : String)
  /-- The answer is no JSON. -/
  | garbled
  /-- There is no node to be asked. -/
  | unreachable
deriving Inhabited

/-- A node that is asked one thing at a time; a request may change what later ones answer. -/
abbrev RpcNode (m : Type → Type) := RpcRequest → m RpcReply

/-- Why a request came to nothing. -/
inductive RpcFailure where
  | refused (code : Int) (message : String) (data : Option Json)
  | silent
  | http (status : Nat) (body : String)
  /-- The answer holds no value of the kind that was asked for. -/
  | undecodable
  /-- A contract returned nothing at all. -/
  | noData (call : String)
  /-- A contract returned too little. -/
  | tooShort
  | unreachable

namespace RpcFailure

def integerText (n : Int) : String :=
  String.ofList ((if n < 0 then ['-'] else []) ++ Digits.write 10 n.natAbs)

/-- What is said about a failure; silence is told by its duration instead. -/
def message : RpcFailure → String
  | refused code message data =>
    "server returned an error response: error code " ++ integerText code ++ ": " ++ message ++
      (data.map fun v => ", data: " ++ v.compact).getD ""
  | silent => ""
  | http status body =>
    "HTTP error " ++ String.ofList (Digits.write 10 status) ++ " with " ++
      if body.isEmpty then "empty body" else "body: " ++ body
  | undecodable => "deserialization error"
  | noData call =>
    "contract call to \x60" ++ call ++ "\x60 returned no data (\"0x\"); the called address " ++
      "might not be a contract"
  | tooShort => "ABI decoding failed: buffer overrun while deserializing"
  | unreachable => "error sending request"

/-- The failure of the chain that it is for an operation. -/
def chainError (operation : String) (timeout : Duration) : RpcFailure → ChainError
  | silent => .timeout operation timeout
  | failure => .rpc operation failure.message

end RpcFailure

/-- The value that a reply holds. -/
def RpcReply.read {α : Type} (reader : Json.Reader α) : RpcReply → Except RpcFailure α
  | result value => (reader value).mapError fun _ => .undecodable
  | refusal code message data => .error (.refused code message data)
  | silence => .error .silent
  | httpError status body => .error (.http status body)
  | garbled => .error .undecodable
  | unreachable => .error .unreachable

end VaultIndex
