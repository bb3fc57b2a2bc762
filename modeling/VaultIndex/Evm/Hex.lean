import VaultIndex.Text.Digits

/-!
# Hexadecimal texts

Fixed-width words and byte strings, written with `0x` in front and in lowercase, read with or
without the mark and in either case.
-/

namespace VaultIndex.Hex

/-- What follows one leading `0x` or `0X`. -/
def unmarked : List Char → List Char
  | '0' :: 'x' :: rest => rest
  | '0' :: 'X' :: rest => rest
  | cs => cs

/-- Reads a word of exactly so many digits. -/
def readWord? (width : Nat) (s : String) : Option Nat :=
  let digits := unmarked s.toList
  if digits.length = width then Digits.read? 16 digits else none

/-- Writes a word with exactly so many digits. -/
def writeWord (width n : Nat) : String :=
  String.ofList ('0' :: 'x' :: Digits.writePadded 16 width n)

/-- Pairs of digits as bytes. -/
def bytesOfDigits? : List Char → Option (List UInt8)
  | [] => some []
  | [_] => none
  | hi :: lo :: rest => do
    let h ← Digits.digit? 16 hi
    let l ← Digits.digit? 16 lo
    let bytes ← bytesOfDigits? rest
    return UInt8.ofNat (16 * h + l) :: bytes

/-- Reads a byte string. -/
def readBytes? (s : String) : Option (List UInt8) := bytesOfDigits? (unmarked s.toList)

/-- Writes a byte string, two digits a byte. -/
def writeBytes (bytes : List UInt8) : String :=
  String.ofList ('0' :: 'x' :: bytes.flatMap fun b => Digits.writePadded 16 2 b.toNat)

/-- The number whose big-endian bytes these are. -/
def natOfBytes (bytes : List UInt8) : Nat := bytes.foldl (fun n b => 256 * n + b.toNat) 0

/-- The last so many big-endian bytes of a number. -/
def bytesOfNat : Nat → Nat → List UInt8
  | 0, _ => []
  | width + 1, n => bytesOfNat width (n / 256) ++ [UInt8.ofNat (n % 256)]

end VaultIndex.Hex
