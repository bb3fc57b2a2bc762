import VaultIndex.Evm.Word
import VaultIndex.Json.Print
import VaultIndex.Json.Read

/-!
# Words in JSON

Addresses, hashes and amounts are texts in JSON; they may also be given as bytes or, for small
amounts, as numbers.
-/

namespace VaultIndex

open Json (Reader)

namespace Address

def json (a : Address) : Json := .ofString a.text

/-- Reads an address from its text or from its twenty bytes. -/
def reader : Reader Address
  | .array items closed => do Json.orMalformed (ofBytes? (← Json.byteList 20 (.array items closed)))
  | v => Json.textual ofText? v

end Address

namespace Hash

def json (h : Hash) : Json := .ofString h.text

/-- Reads a hash from its text or from its thirty-two bytes. -/
def reader : Reader Hash
  | .array items closed => do Json.orMalformed (ofBytes? (← Json.byteList 32 (.array items closed)))
  | v => Json.textual ofText? v

end Hash

namespace U256

def json (n : U256) : Json := .ofString n.text

/-- Reads an amount from a quantity or from a number of 64 bits. -/
def reader : Reader U256
  | .number written => do return BitVec.ofNat 256 (← Json.word64 (.number written)).toNat
  | v => Json.textual ofText? v

end U256

namespace Json

/-- A table as an object; the entries stand in ascending order of their keys. -/
def ofTable {κ α : Type} [Numbered κ] (key : κ → String) (write : α → Json) (t : Table κ α) :
    Json :=
  ofFields (t.entries.map fun e => (key e.1, write e.2))

/-- A number of 64 bits as a key. -/
def word64Key (n : UInt64) : String := String.ofList (Digits.write 10 n.toNat)

/-- A table of addresses. -/
def ofAddressTable {α : Type} (write : α → Json) (t : Table Address α) : Json :=
  ofTable Address.text write t

/-- Reads a table of addresses. -/
def addressTable {α : Type} (item : Reader α) : Reader (Table Address α) :=
  table (textualKey? Address.ofText?) item

/-- A table of block or chain numbers. -/
def ofNumberTable {α : Type} (write : α → Json) (t : Table UInt64 α) : Json :=
  ofTable word64Key write t

/-- Reads a table of block or chain numbers. -/
def numberTable {α : Type} (item : Reader α) : Reader (Table UInt64 α) := table word64Key? item

end Json

end VaultIndex
