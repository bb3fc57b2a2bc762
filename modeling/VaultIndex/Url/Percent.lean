import VaultIndex.Text.Digits

/-!
# Percent escapes

Characters that have no place in a part of a URL are written as the bytes of their UTF-8 form, each
behind a percent sign. Which characters these are differs from part to part.
-/

namespace VaultIndex.Url

/-- A set of characters that have to be escaped. -/
abbrev EscapeSet := Char → Bool

namespace EscapeSet

/-- Control characters, and all that is not ASCII. -/
def control : EscapeSet := fun c => c.toNat < 0x20 || 0x7F ≤ c.toNat

/-- A set with further characters. -/
def also (set : EscapeSet) (more : List Char) : EscapeSet := fun c => set c || more.contains c

def fragment : EscapeSet := control.also [' ', '"', '<', '>', '\x60']

def query : EscapeSet := control.also [' ', '"', '#', '<', '>']

/-- In URLs of the web's schemes a query has no single quote. -/
def specialQuery : EscapeSet := query.also ['\x27']

def path : EscapeSet := fragment.also ['#', '?', '\x7b', '\x7d']

def userinfo : EscapeSet := path.also ['/', ':', ';', '=', '@', '[', '\\', ']', '^', '|']

end EscapeSet

/-- A character, escaped if it is in the set. -/
def escapeChar (set : EscapeSet) (c : Char) : List Char :=
  if set c then
    (String.utf8EncodeChar c).flatMap fun b =>
      '%' :: (Digits.writePadded 16 2 b.toNat).map Char.toUpper
  else [c]

/-- Characters with those of the set escaped. -/
def escape (set : EscapeSet) (cs : List Char) : List Char := cs.flatMap (escapeChar set)

/-- The bytes of characters with their escapes resolved; a percent sign without two hexadecimal
digits stands for itself. -/
def unescapedBytes : List Char → List UInt8
  | '%' :: a :: b :: rest =>
    match Digits.read? 16 [a, b] with
    | some n => UInt8.ofNat n :: unescapedBytes rest
    | none => '%'.toUInt8 :: unescapedBytes (a :: b :: rest)
  | c :: rest => String.utf8EncodeChar c ++ unescapedBytes rest
  | [] => []

/-- Characters with their escapes resolved, where these are UTF-8. -/
def unescape? (cs : List Char) : Option (List Char) :=
  (String.fromUTF8? ⟨(unescapedBytes cs).toArray⟩).map String.toList

end VaultIndex.Url
