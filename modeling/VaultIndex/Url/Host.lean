import VaultIndex.Text.Split
import VaultIndex.Url.Percent
import VaultIndex.Url.Punycode

/-!
# Hosts

A host is a domain name in lowercase, an address of four or of sixteen bytes, or, in URLs of other
schemes than the web's, any text. A name whose last label is a number has to be an address of four
bytes.
-/

namespace VaultIndex

inductive UrlHost where
  | domain (name : List Char)
  | ipv4 (address : Nat)
  /-- The eight pieces of an address. -/
  | ipv6 (pieces : List Nat)
  | other (text : List Char)
deriving DecidableEq, Inhabited

namespace UrlHost

/-! ### Four bytes -/

/-- A number in one of three bases. -/
def readIpv4Number? : List Char → Option Nat
  | [] => none
  | '0' :: 'x' :: rest | '0' :: 'X' :: rest => Digits.read? 16 rest
  | '0' :: c :: rest => Digits.read? 8 (c :: rest)
  | digits => Digits.read? 10 digits

/-- The labels of a name, without an empty last one. -/
def labels (name : List Char) : List (List Char) :=
  let parts := splitOn '.' name
  if parts.length > 1 ∧ parts.getLast? = some [] then parts.dropLast else parts

/-- Whether the last label is a number. -/
def endsInNumber (name : List Char) : Bool :=
  match (labels name).getLast? with
  | none => false
  | some last => (!last.isEmpty && Digits.areDecimal last) || (readIpv4Number? last).isSome

/-- Reads up to four numbers; the last one fills the bytes that are left. -/
def readIpv4? (name : List Char) : Option Nat := do
  let numbers ← (labels name).mapM readIpv4Number?
  let last ← numbers.getLast?
  let room := Nat.pow 256 (5 - numbers.length)
  guard (numbers.length ≤ 4 ∧ numbers.dropLast.all (· < 256) ∧ last < room)
  let front := numbers.dropLast.foldl (fun n b => 256 * n + b) 0
  return front * room + last

/-- Four bytes in decimal. -/
def ipv4Chars (address : Nat) : List Char :=
  joinWith ['.'] ([address / 16777216, address / 65536, address / 256, address].map fun n =>
    Digits.write 10 (n % 256))

/-! ### Sixteen bytes -/

/-- A byte in decimal, without leading zeros. -/
def readByte? (cs : List Char) : Option Nat := do
  guard (!cs.isEmpty)
  let n ← Digits.read? 10 cs
  guard (n < 256 ∧ Digits.write 10 n = cs)
  return n

/-- One to four hexadecimal digits. -/
def readPiece? (cs : List Char) : Option Nat := do
  guard (1 ≤ cs.length ∧ cs.length ≤ 4)
  Digits.read? 16 cs

/-- Pieces between colons; the last may be four bytes, which are two pieces. -/
def readPieces? : List (List Char) → Option (List Nat)
  | [] => some []
  | [last] =>
    if last.contains '.' then do
      match ← (splitOn '.' last).mapM readByte? with
      | [a, b, c, d] => return [256 * a + b, 256 * c + d]
      | _ => none
    else do return [← readPiece? last]
  | piece :: rest => do return (← readPiece? piece) :: (← readPieces? rest)

/-- Splits at the first double colon. -/
def cutDouble : List Char → List Char × Option (List Char)
  | ':' :: ':' :: rest => ([], some rest)
  | c :: rest => let (front, behind) := cutDouble rest; (c :: front, behind)
  | [] => ([], none)

/-- The pieces of a text without a double colon. -/
def readSide? (cs : List Char) : Option (List Nat) :=
  if cs.isEmpty then some [] else readPieces? (splitOn ':' cs)

/-- Reads eight pieces; a double colon stands for all that are missing. -/
def readIpv6? (cs : List Char) : Option (List Nat) := do
  match cutDouble cs with
  | (whole, none) =>
    let pieces ← readPieces? (splitOn ':' whole)
    guard (pieces.length = 8)
    return pieces
  | (front, some behind) =>
    guard (!front.contains '.')
    let left ← readSide? front
    let right ← readSide? behind
    guard (left.length + right.length < 8)
    return left ++ List.replicate (8 - left.length - right.length) 0 ++ right

/-- How many zeros stand at a place. -/
def zerosAt (pieces : List Nat) (i : Nat) : Nat := ((pieces.drop i).takeWhile (· = 0)).length

/-- Where the longest run of zeros starts, the first of several. -/
def longestZeros (pieces : List Nat) : Nat :=
  (List.range pieces.length).foldl (fun best i =>
    if zerosAt pieces best < zerosAt pieces i then i else best) 0

/-- Pieces between colons; a double colon stands for the longest run of two zeros or more. -/
def ipv6Chars (pieces : List Nat) : List Char :=
  let write := fun ps : List Nat => joinWith [':'] (ps.map (Digits.write 16))
  let start := longestZeros pieces
  let length := zerosAt pieces start
  if length < 2 then write pieces
  else write (pieces.take start) ++ ':' :: ':' :: write (pieces.drop (start + length))

/-! ### Names -/

/-- Characters that no host has. -/
def isForbidden (c : Char) : Bool :=
  ['\x00', '\t', '\n', '\r', ' ', '#', '/', ':', '<', '>', '?', '@', '[', '\\', ']', '^',
    '|'].contains c

/-- Characters that no domain name has. -/
def isForbiddenInDomain (c : Char) : Bool :=
  isForbidden c || c = '%' || c.toNat < 0x20 || c.toNat = 0x7F

/-- A label in lowercase ASCII. -/
def asciiLabel (label : List Char) : List Char :=
  let lower := label.map Char.toLower
  if lower.all (·.toNat < 0x80) then lower else ['x', 'n', '-', '-'] ++ Url.Punycode.encode lower

/-- A domain name in lowercase ASCII, where it is one. -/
def readDomain? (cs : List Char) : Option (List Char) := do
  let name := joinWith ['.'] ((splitOn '.' (← Url.unescape? cs)).map asciiLabel)
  guard (!name.isEmpty ∧ !name.any isForbiddenInDomain)
  return name

/-- Reads an address in brackets. -/
def readBracketed? (cs : List Char) : Option UrlHost := do
  guard (cs.getLast? = some ']')
  return ipv6 (← readIpv6? cs.dropLast)

/-- Reads the host of a URL. -/
def read? (isSpecial : Bool) : List Char → Option UrlHost
  | '[' :: rest => readBracketed? rest
  | cs =>
    if isSpecial then do
      let name ← readDomain? cs
      if endsInNumber name then return ipv4 (← readIpv4? name) else return domain name
    else if cs.any isForbidden then none
    else some (other (Url.escape .control cs))

/-- The characters of a host. -/
def chars : UrlHost → List Char
  | domain name => name
  | ipv4 address => ipv4Chars address
  | ipv6 pieces => '[' :: (ipv6Chars pieces ++ [']'])
  | other text => text

end UrlHost

end VaultIndex
