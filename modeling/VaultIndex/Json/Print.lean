import VaultIndex.Json.Quoted
import VaultIndex.Json.Basic
import VaultIndex.Decimal.Text

/-!
# Writing JSON

Values of the usual kinds, and two layouts: `compact` without a blank, and `pretty` with one item a
line, two blanks to the level.
-/

namespace VaultIndex.Json

/-! ### Values -/

def ofString (s : String) : Json := .string (quote s)

def ofNat (n : Nat) : Json := .number (Digits.write 10 n)

def ofWord64 (n : UInt64) : Json := ofNat n.toNat

/-- `null` for no value. -/
def ofOption {α : Type} (write : α → Json) : Option α → Json
  | none => .null
  | some a => write a

def ofList {α : Type} (write : α → Json) (items : List α) : Json := ofItems (items.map write)

/-- An object with members of the given names. -/
def ofFields (fields : List (String × Json)) : Json :=
  ofMembers (fields.map fun f => (quote f.1, f.2))

/-- A decimal is written as a text. -/
def ofDecimal (d : Decimal) : Json := ofString d.text

/-! ### Compact layout -/

mutual

/-- The characters of a value, without a blank. -/
def compactChars : Json → List Char
  | .null => ['n', 'u', 'l', 'l']
  | .bool true => ['t', 'r', 'u', 'e']
  | .bool false => ['f', 'a', 'l', 's', 'e']
  | .number written => written
  | .string written => '"' :: (written ++ ['"'])
  | .array items _ => '[' :: (compactItems items ++ [']'])
  | .object members _ => '{' :: (compactMembers members ++ ['}'])
  | .fault => []

def compactItems : List Json → List Char
  | [] => []
  | [v] => compactChars v
  | v :: rest => compactChars v ++ ',' :: compactItems rest

def compactMembers : List (List Char × Json) → List Char
  | [] => []
  | [(key, v)] => '"' :: (key ++ '"' :: ':' :: compactChars v)
  | (key, v) :: rest => '"' :: (key ++ '"' :: ':' :: (compactChars v ++ ',' :: compactMembers rest))

end

/-- A value on one line. -/
def compact (v : Json) : String := String.ofList (compactChars v)

/-! ### Pretty layout -/

/-- A new line at a level. -/
def lineBreak (level : Nat) : List Char := '\n' :: List.replicate (2 * level) ' '

mutual

/-- The characters of a value whose first line is at a level; empty containers stay on one line. -/
def prettyChars (level : Nat) : Json → List Char
  | .array [] _ => ['[', ']']
  | .array (v :: rest) _ =>
    '[' :: (lineBreak (level + 1) ++ prettyChars (level + 1) v ++ prettyItems (level + 1) rest ++
      lineBreak level ++ [']'])
  | .object [] _ => ['{', '}']
  | .object ((key, v) :: rest) _ =>
    '{' :: (lineBreak (level + 1) ++ '"' :: (key ++ '"' :: ':' :: ' ' ::
      (prettyChars (level + 1) v ++ prettyMembers (level + 1) rest ++ lineBreak level ++ ['}'])))
  | v => compactChars v

/-- Further items, each behind a comma and on a line of its own. -/
def prettyItems (level : Nat) : List Json → List Char
  | [] => []
  | v :: rest => ',' :: (lineBreak level ++ prettyChars level v ++ prettyItems level rest)

def prettyMembers (level : Nat) : List (List Char × Json) → List Char
  | [] => []
  | (key, v) :: rest =>
    ',' :: (lineBreak level ++ '"' :: (key ++ '"' :: ':' :: ' ' ::
      (prettyChars level v ++ prettyMembers level rest)))

end

/-- A value with one item a line. -/
def pretty (v : Json) : String := String.ofList (prettyChars 0 v)

end VaultIndex.Json
