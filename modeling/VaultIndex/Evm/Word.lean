import VaultIndex.Evm.Hex
import VaultIndex.Table.Basic

/-!
# Words

The fixed-width values of a chain: amounts of 256 bits, contract addresses and hashes, and the
quantity texts in which amounts and block numbers are written.
-/

namespace VaultIndex

/-- An unsigned amount of 256 bits. -/
abbrev U256 := BitVec 256

/-- The number that identifies a chain. -/
abbrev ChainId := UInt64

/-- The address of a contract. -/
structure Address where
  word : BitVec 160
deriving DecidableEq, Inhabited

/-- The hash of a transaction or of an event signature. -/
structure Hash where
  word : BitVec 256
deriving DecidableEq, Inhabited

namespace Address

/-- The address that stands for "none deployed". -/
def zero : Address := ⟨0⟩

def isZero (a : Address) : Bool := a.word == 0

/-- Addresses are ordered as numbers, which is the order of their bytes. -/
instance : Numbered Address :=
  ⟨fun a => a.word.toNat, fun {a b} h => by cases a; cases b; simp_all [BitVec.toNat_inj]⟩

/-- Reads forty hexadecimal digits. -/
def ofText? (s : String) : Option Address := (Hex.readWord? 40 s).map fun n => ⟨BitVec.ofNat 160 n⟩

/-- The text of an address has lowercase digits, without a checksum. -/
def text (a : Address) : String := Hex.writeWord 40 a.word.toNat

/-- Twenty bytes as an address. -/
def ofBytes? (bytes : List UInt8) : Option Address :=
  if bytes.length = 20 then some ⟨BitVec.ofNat 160 (Hex.natOfBytes bytes)⟩ else none

end Address

namespace Hash

/-- Reads sixty-four hexadecimal digits. -/
def ofText? (s : String) : Option Hash := (Hex.readWord? 64 s).map fun n => ⟨BitVec.ofNat 256 n⟩

def text (h : Hash) : String := Hex.writeWord 64 h.word.toNat

/-- Thirty-two bytes as a hash. -/
def ofBytes? (bytes : List UInt8) : Option Hash :=
  if bytes.length = 32 then some ⟨BitVec.ofNat 256 (Hex.natOfBytes bytes)⟩ else none

end Hash

/-! ### Quantities -/

namespace Quantity

/-- The base that a quantity's mark names, and the digits behind the mark. -/
def split : List Char → Nat × List Char
  | '0' :: 'x' :: rest => (16, rest)
  | '0' :: 'X' :: rest => (16, rest)
  | '0' :: 'o' :: rest => (8, rest)
  | '0' :: 'O' :: rest => (8, rest)
  | '0' :: 'b' :: rest => (2, rest)
  | '0' :: 'B' :: rest => (2, rest)
  | digits => (10, digits)

/-- Reads a quantity of so many bits; underscores between digits count for nothing, and neither do
absent digits. -/
def read? (width : Nat) (s : String) : Option (BitVec width) := do
  let (base, digits) := split s.toList
  let n ← Digits.read? base (digits.filter (· ≠ '_'))
  let word := BitVec.ofNat width n
  if word.toNat = n then some word else none

/-- Writes a quantity in hexadecimal without leading zeros. -/
def write (n : Nat) : String := String.ofList ('0' :: 'x' :: Digits.write 16 n)

end Quantity

namespace U256

/-- Reads a quantity of 256 bits. -/
def ofText? (s : String) : Option U256 := Quantity.read? 256 s

/-- Writes an amount as a hexadecimal quantity. -/
def text (n : U256) : String := Quantity.write n.toNat

/-- The first thirty-two bytes, big-endian; `none` where fewer are given. -/
def ofBytes? (bytes : List UInt8) : Option U256 :=
  if 32 ≤ bytes.length then some (BitVec.ofNat 256 (Hex.natOfBytes (bytes.take 32))) else none

/-- An amount as thirty-two big-endian bytes. -/
def bytes (n : U256) : List UInt8 := Hex.bytesOfNat 32 n.toNat

end U256

end VaultIndex
