import VaultIndex.Json.Read

/-!
# Records

Objects with named fields. A field is there once or, where it has a default, not at all; fields of
other names are passed over. The fields may also stand in an array, in their order of declaration.
-/

namespace VaultIndex.Json

/-- Something wrong with a record: behind how many members it shows, and what it is. -/
structure Problem where
  position : Nat
  cause : ReadError

/-- A part of a record, or the problem that keeps it from being read. -/
abbrev Checked (α : Type) := Except Problem α

/-- The problem that shows first; of two at one place the left one. -/
def Problem.first (p q : Problem) : Problem := if q.position < p.position then q else p

/-- Both parts, or the first of their problems. -/
def Checked.both {α β : Type} (a : Checked α) (b : Checked β) : Checked (α × β) :=
  match a, b with
  | .ok a, .ok b => .ok (a, b)
  | .ok _, .error q => .error q
  | .error p, .ok _ => .error p
  | .error p, .error q => .error (p.first q)

/-- The fields of a record as they stand in the text. -/
structure Fields where
  named : List (String × Json)
  /-- The problem of a field that is not there. -/
  absent : String → Problem

/-- The first field of a name, and how many stand before it. -/
def Fields.find? (fields : Fields) (name : String) : Option (Nat × Json) :=
  (fields.named.zipIdx.find? (·.1.1 = name)).map fun field => (field.2, field.1.2)

/-- How the fields of a record are read, in the order of their declaration. -/
structure Record (α : Type) where
  names : List String
  read : Fields → Checked α

namespace Record

/-- A record without fields. -/
def make {α : Type} (a : α) : Record α := ⟨[], fun _ => .ok a⟩

/-- One more field; `otherwise` says what its absence means. -/
def field {α β : Type} (r : Record (α → β)) (name : String) (reader : Reader α)
    (otherwise : Problem → Checked α) : Record β where
  names := r.names ++ [name]
  read fields :=
    let value : Checked α :=
      match fields.find? name with
      | none => otherwise (fields.absent name)
      | some (position, v) => (reader v).mapError fun cause => ⟨position, cause⟩
    (Checked.both (r.read fields) value).map fun (f, a) => f a

/-- One more field, which has to be there. -/
def required {α β : Type} (r : Record (α → β)) (name : String) (reader : Reader α) : Record β :=
  r.field name reader .error

/-- One more field, with what it is when it is not there. -/
def withDefault {α β : Type} (r : Record (α → β)) (name : String) (reader : Reader α) (a : α) :
    Record β :=
  r.field name reader fun _ => .ok a

/-- What is wrong with the members of an object apart from the values of known fields. -/
def problem? (names : List String) (closed : Bool) :
    Nat → List (List Char × Json) → List String → Option Problem
  | position, [], _ => if closed then none else some ⟨position, .malformed⟩
  | position, (key, v) :: rest, seen =>
    match unquote? key with
    | none => some ⟨position, .malformed⟩
    | some name =>
      if names.contains name then
        if seen.contains name then some ⟨position, .duplicateField name⟩
        else problem? names closed (position + 1) rest (name :: seen)
      else if v.isWhole then problem? names closed (position + 1) rest seen
      else some ⟨position, .malformed⟩

/-- Members with their keys as texts; a key that is no text names no field. -/
def unquoted (members : List (List Char × Json)) : List (String × Json) :=
  members.map fun m => ((unquote? m.1).getD "", m.2)

/-- The members of an object as fields. A missing field shows at the end of the object. -/
def ofObject {α : Type} (r : Record α) (members : List (List Char × Json)) (closed : Bool) :
    Checked α :=
  let structural : Checked Unit := match problem? r.names closed 0 members [] with
    | none => .ok ()
    | some p => .error p
  let fields : Fields := ⟨unquoted members, fun name => ⟨members.length + 1, .missingField name⟩⟩
  (Checked.both structural (r.read fields)).map (·.2)

/-- The items of an array as fields, one for each name. -/
def ofArray {α : Type} (r : Record α) (items : List Json) (closed : Bool) : Checked α :=
  let structural : Checked Unit :=
    if closed ∧ items.length ≤ r.names.length then .ok ()
    else .error ⟨min items.length r.names.length, .malformed⟩
  let fields : Fields := ⟨r.names.zip items, fun _ => ⟨items.length, .malformed⟩⟩
  (Checked.both structural (r.read fields)).map (·.2)

/-- Reads a record. -/
def reader {α : Type} (r : Record α) : Reader α
  | object members closed => (r.ofObject members closed).mapError Problem.cause
  | array items closed => (r.ofArray items closed).mapError Problem.cause
  | _ => .error .malformed

end Record

end VaultIndex.Json
