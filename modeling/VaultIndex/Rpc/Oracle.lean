import VaultIndex.Oracle.Basic
import VaultIndex.Rpc.Logs

/-!
# Oracle calls over JSON-RPC

A call is sent as the four bytes that name the function and a word for each argument; the answer
starts with the word that it returns.
-/

namespace VaultIndex

namespace OracleCall

/-- The bytes that name the function. -/
def selector : OracleCall → List UInt8
  | strategyApr .. => [0x4d, 0x06, 0x0e, 0x36]
  | currentApr _ => [0x59, 0xd8, 0x70, 0x3d]

/-- The words of the arguments. -/
def arguments : OracleCall → List U256
  | strategyApr strategy debtChange => [strategy.word.setWidth 256, debtChange]
  | currentApr vault => [vault.word.setWidth 256]

/-- The bytes of a call. -/
def input (call : OracleCall) : List UInt8 := call.selector ++ call.arguments.flatMap U256.bytes

/-- The word that an answer starts with. -/
def output (call : OracleCall) (data : List UInt8) : Except RpcFailure U256 :=
  if data.isEmpty then .error (.noData call.function)
  else match U256.ofBytes? data with
    | some n => .ok n
    | none => .error .tooShort

end OracleCall

/-- The oracle at an address, as a node answers for it. -/
def RpcNode.aprOracle {m : Type → Type} [Monad m] (node : RpcNode m) (timeout : Duration)
    (oracle : Address) : AprOracle m :=
  fun call => node.ask call.function timeout (.call oracle call.input) fun reply => do
    call.output (← reply.read Json.byteString)

end VaultIndex
