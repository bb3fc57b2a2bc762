/-!
# JSON

JSON values as they are written: a string keeps its escapes and a number its digits, so that a
reader can tell `"1"` from `"\u0031"` and `1` from `1.0`. A text that goes wrong somewhere is still
a value up to there: `fault` stands where no value could be read, and a container that never found
its end is not `closed`.
-/

namespace VaultIndex

/-- A JSON value as it is written. -/
inductive Json where
  | null
  | bool (value : Bool)
  /-- A number, with all its characters. -/
  | number (written : List Char)
  /-- A string, with the characters between its quotes. -/
  | string (written : List Char)
  | array (items : List Json) (closed : Bool)
  | object (members : List (List Char × Json)) (closed : Bool)
  /-- A place where the text breaks off or is no JSON. -/
  | fault
deriving Inhabited

namespace Json

mutual

/-- Whether the value was read to its end without a fault. -/
def isWhole : Json → Bool
  | null | bool _ | number _ | string _ => true
  | array items closed => itemsAreWhole items && closed
  | object members closed => membersAreWhole members && closed
  | fault => false

def itemsAreWhole : List Json → Bool
  | [] => true
  | v :: rest => isWhole v && itemsAreWhole rest

def membersAreWhole : List (List Char × Json) → Bool
  | [] => true
  | (_, v) :: rest => isWhole v && membersAreWhole rest

end

/-- A closed array. -/
def ofItems (items : List Json) : Json := .array items true

/-- A closed object. -/
def ofMembers (members : List (List Char × Json)) : Json := .object members true

end Json

end VaultIndex
