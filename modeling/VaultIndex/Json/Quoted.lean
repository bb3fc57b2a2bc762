import VaultIndex.Text.Digits

/-!
# Quoted text

The characters between the quotes of a JSON string. Control characters, quotes and backslashes are
escaped when written; any character may be escaped when read, in UTF-16 units where need be.
-/

namespace VaultIndex.Json

/-- Four hexadecimal digits. -/
def unicodeEscape (n : Nat) : List Char := '\\' :: 'u' :: Digits.writePadded 16 4 n

/-- One character, escaped where it has to be. -/
def quoteChar (c : Char) : List Char :=
  if c = '"' then ['\\', '"']
  else if c = '\\' then ['\\', '\\']
  else if c = '\x08' then ['\\', 'b']
  else if c = '\t' then ['\\', 't']
  else if c = '\n' then ['\\', 'n']
  else if c = '\x0c' then ['\\', 'f']
  else if c = '\r' then ['\\', 'r']
  else if c.toNat < 0x20 then unicodeEscape c.toNat
  else [c]

/-- The written form of a text. -/
def quote (s : String) : List Char := s.toList.flatMap quoteChar

/-- The character that a one-letter escape stands for. -/
def escaped? : Char → Option Char
  | '"' => some '"'
  | '\\' => some '\\'
  | '/' => some '/'
  | 'b' => some '\x08'
  | 'f' => some '\x0c'
  | 'n' => some '\n'
  | 'r' => some '\r'
  | 't' => some '\t'
  | _ => none

/-- A UTF-16 unit that opens a pair. -/
def isHighSurrogate (n : Nat) : Bool := 0xD800 ≤ n && n < 0xDC00

/-- A UTF-16 unit that closes a pair. -/
def isLowSurrogate (n : Nat) : Bool := 0xDC00 ≤ n && n < 0xE000

/-- The character of a pair of UTF-16 units. -/
def ofSurrogates (high low : Nat) : Char :=
  Char.ofNat (0x10000 + (high - 0xD800) * 0x400 + (low - 0xDC00))

/-- Reads a written form back; a surrogate without its partner is no text. -/
def unquoteChars? : List Char → Option (List Char)
  | [] => some []
  | '\\' :: 'u' :: a :: b :: c :: d :: '\\' :: 'u' :: e :: f :: g :: h :: rest => do
    let first ← Digits.read? 16 [a, b, c, d]
    if isHighSurrogate first then
      let second ← Digits.read? 16 [e, f, g, h]
      guard (isLowSurrogate second)
      let text ← unquoteChars? rest
      return ofSurrogates first second :: text
    else
      guard !isLowSurrogate first
      let text ← unquoteChars? ('\\' :: 'u' :: e :: f :: g :: h :: rest)
      return Char.ofNat first :: text
  | '\\' :: 'u' :: a :: b :: c :: d :: rest => do
    let unit ← Digits.read? 16 [a, b, c, d]
    guard !(isHighSurrogate unit || isLowSurrogate unit)
    let text ← unquoteChars? rest
    return Char.ofNat unit :: text
  | '\\' :: c :: rest => do
    let plain ← escaped? c
    let text ← unquoteChars? rest
    return plain :: text
  | c :: rest => do
    let text ← unquoteChars? rest
    return c :: text

/-- The text that a written form stands for. -/
def unquote? (written : List Char) : Option String := (unquoteChars? written).map String.ofList

end VaultIndex.Json
