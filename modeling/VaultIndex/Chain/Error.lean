import VaultIndex.Evm.Word
import VaultIndex.Text.Duration

/-!
# Failures of a chain

Why a single question to a chain has no answer.
-/

namespace VaultIndex

inductive ChainError where
  | unknownChain (chain : ChainId)
  | oracleUnavailable (chain : ChainId)
  /-- The request was answered with a refusal. -/
  | rpc (operation message : String)
  /-- The request was not answered in time. -/
  | timeout (operation : String) (after : Duration)
  /-- A log does not hold the event that was asked for. -/
  | decode (message : String)
deriving DecidableEq, Inhabited

namespace ChainError

/-- A number in decimal. -/
def shownId (chain : ChainId) : String := String.ofList (Digits.write 10 chain.toNat)

def message : ChainError → String
  | unknownChain chain => "Unknown chain: " ++ shownId chain
  | oracleUnavailable chain => "No APR oracle deployed on chain " ++ shownId chain
  | rpc operation message => "RPC request '" ++ operation ++ "' failed: " ++ message
  | timeout operation after => "RPC request '" ++ operation ++ "' timed out after " ++ after.text
  | decode message => "Failed to decode log: " ++ message

/-- A transient failure may be gone in the next pass. -/
def isTransient : ChainError → Bool
  | rpc .. | timeout .. => true
  | unknownChain _ | oracleUnavailable _ | decode _ => false

end ChainError

end VaultIndex
