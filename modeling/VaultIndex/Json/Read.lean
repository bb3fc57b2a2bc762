import VaultIndex.Json.Basic
import VaultIndex.Json.Quoted
import VaultIndex.Json.Parse
import VaultIndex.Table.Basic

/-!
# Readers

Reading typed values out of JSON. A value with several faults is refused for the one that stands
first in the text. Keys of tables and names of variants have readers of their own.
-/

namespace VaultIndex.Json

/-- Why a JSON text is refused. -/
inductive ReadError where
  /-- The text is no JSON, or a value has another shape than it should. -/
  | malformed
  | missingField (name : String)
  | duplicateField (name : String)
  | unknownVariant (found : String) (expected : List String)
deriving DecidableEq

/-- The alternatives of an unknown variant, each in backquotes. -/
def alternatives (names : List String) : String :=
  let quoted := names.map fun name => "\x60" ++ name ++ "\x60"
  match quoted with
  | [a, b] => "expected " ++ a ++ " or " ++ b
  | [a] => "expected " ++ a
  | many => "expected one of " ++ ", ".intercalate many

/-- What is said about a refusal; a malformed text is refused without a word. -/
def ReadError.message? : ReadError → Option String
  | malformed => none
  | missingField name => some ("missing field \x60" ++ name ++ "\x60")
  | duplicateField name => some ("duplicate field \x60" ++ name ++ "\x60")
  | unknownVariant found expected =>
    some ("unknown variant \x60" ++ found ++ "\x60, " ++ alternatives expected)

/-- Reads a typed value. -/
abbrev Reader (α : Type) := Json → Except ReadError α

/-- The value, or `malformed` where there is none. -/
def orMalformed {α : Type} : Option α → Except ReadError α
  | some a => .ok a
  | none => .error .malformed

/-! ### Scalars -/

/-- A number without sign, fraction and exponent. -/
def natural : Reader Nat
  | number written => orMalformed (Digits.read? 10 written)
  | _ => .error .malformed

/-- A number of 64 bits. -/
def word64 : Reader UInt64 := fun v => do
  let n ← natural v
  if n < UInt64.size then return UInt64.ofNat n else throw .malformed

def boolean : Reader Bool
  | bool value => .ok value
  | _ => .error .malformed

def text : Reader String
  | string written => orMalformed (unquote? written)
  | _ => .error .malformed

/-- A text of the form that `read?` accepts. -/
def textual {α : Type} (read? : String → Option α) : Reader α := fun v => do
  orMalformed (read? (← text v))

/-- A value or `null`. -/
def optional {α : Type} (item : Reader α) : Reader (Option α)
  | null => .ok none
  | v => (item v).map some

/-! ### Containers -/

/-- The items of an array, in order. -/
def list {α : Type} (item : Reader α) : Reader (List α)
  | array items closed => do
    let values ← items.mapM item
    if closed then return values else throw .malformed
  | _ => .error .malformed

/-- Exactly so many bytes, each a number of its own. -/
def byteList (length : Nat) : Reader (List UInt8) := fun v => do
  let numbers ← list natural v
  if numbers.length = length ∧ numbers.all (· < 256) then return numbers.map UInt8.ofNat
  else throw .malformed

/-- A key and its value. -/
def entry {κ α : Type} (key? : List Char → Option κ) (item : Reader α) (m : List Char × Json) :
    Except ReadError (κ × α) := do
  let k ← orMalformed (key? m.1)
  return (k, ← item m.2)

/-- An object as a table; of values under one key the last one stays. -/
def table {κ α : Type} [Numbered κ] (key? : List Char → Option κ) (item : Reader α) :
    Reader (Table κ α)
  | object members closed => do
    let entries ← members.mapM (entry key? item)
    if closed then return Table.ofList entries else throw .malformed
  | _ => .error .malformed

/-- A number as a key; it reads only in the form in which it is written. -/
def word64Key? (written : List Char) : Option UInt64 := do
  let n ← Digits.read? 10 written
  guard (n < UInt64.size ∧ Digits.write 10 n = written)
  return UInt64.ofNat n

/-- A text as a key. -/
def textualKey? {κ : Type} (read? : String → Option κ) (written : List Char) : Option κ :=
  (unquote? written).bind read?

/-! ### Variants -/

/-- The alternative of a given name. -/
def named {α : Type} (variants : List (String × α)) (name : String) : Except ReadError α :=
  match variants.find? (·.1 = name) with
  | some v => .ok v.2
  | none => .error (.unknownVariant name (variants.map (·.1)))

/-- One of several names, alone or as the only key of an object around `null`. -/
def variant {α : Type} (variants : List (String × α)) : Reader α
  | string written => do named variants (← orMalformed (unquote? written))
  | object ((key, v) :: rest) closed => do
    let a ← named variants (← orMalformed (unquote? key))
    match v, rest, closed with
    | null, [], true => return a
    | _, _, _ => throw .malformed
  | _ => .error .malformed

/-! ### Texts -/

/-- Reads a text that holds one value. -/
def readText {α : Type} (reader : Reader α) (s : String) : Except ReadError α := do
  let document := parse s
  let a ← reader document.root
  if document.alone then return a else throw .malformed

end VaultIndex.Json
