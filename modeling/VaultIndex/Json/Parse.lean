import VaultIndex.Json.Basic
import VaultIndex.Json.Token

/-!
# Reading JSON texts

Tokens become a value with a stack of the containers that are still open. Every text has a value;
what went wrong shows in it as a `fault` or a container that is not closed.
-/

namespace VaultIndex.Json

/-- A container that is still open, with what it holds so far in reverse. -/
inductive Frame where
  | array (items : List Json)
  /-- An object, and the key whose value is being read. -/
  | object (members : List (List Char × Json)) (key : List Char)

/-- What the grammar admits next. -/
inductive Expect where
  | value
  /-- The first item of an array, or its end. -/
  | itemOrClose
  /-- The first key of an object, or its end; the object's members so far are none. -/
  | keyOrClose
  | key (members : List (List Char × Json))
  | colon (members : List (List Char × Json)) (key : List Char)
  /-- A comma or the end of the innermost container, which holds what was read last. -/
  | more
  /-- A comma or the end of the innermost object, whose members are given. -/
  | moreMembers (members : List (List Char × Json))
  | nothing (root : Json)

/-- A text as one value, and whether it stands alone in the text. -/
structure Document where
  root : Json
  alone : Bool

/-- Closes the open containers around a value that goes wrong. -/
def abandon (v : Json) : List Frame → Json
  | [] => v
  | .array items :: outer => abandon (.array (v :: items).reverse false) outer
  | .object members key :: outer => abandon (.object ((key, v) :: members).reverse false) outer

/-- Puts a value into the innermost container. -/
def deliver (v : Json) : List Frame → List Frame × Expect
  | [] => ([], .nothing v)
  | .array items :: outer => (.array (v :: items) :: outer, .more)
  | .object members key :: outer => (outer, .moreMembers ((key, v) :: members))

/-- The value of a token that is a value by itself. -/
def scalar? : Token → Option Json
  | .null => some .null
  | .bool b => some (.bool b)
  | .number w => some (.number w)
  | .string w => some (.string w)
  | _ => none

/-- The value that is left when no further token can be used. -/
def giveUp (stack : List Frame) : Expect → Json
  | .value | .itemOrClose | .more =>
    match stack with
    | .array items :: outer => abandon (.array items.reverse false) outer
    | stack => abandon .fault stack
  | .keyOrClose => abandon (.object [] false) stack
  | .key members | .moreMembers members => abandon (.object members.reverse false) stack
  | .colon members key => abandon (.object ((key, .fault) :: members).reverse false) stack
  | .nothing root => root

/-- One token: the open containers and what may follow, `none` where the token has no place. -/
def step? (stack : List Frame) (expect : Expect) (t : Token) : Option (List Frame × Expect) :=
  match expect, t with
  | .value, .openArray | .itemOrClose, .openArray => some (.array [] :: stack, .itemOrClose)
  | .value, .openObject | .itemOrClose, .openObject => some (stack, .keyOrClose)
  | .value, t => (scalar? t).map (deliver · stack)
  | .itemOrClose, .closeArray | .more, .closeArray =>
    match stack with
    | .array items :: outer => some (deliver (.array items.reverse true) outer)
    | _ => none
  | .itemOrClose, t => (scalar? t).map (deliver · stack)
  | .keyOrClose, .closeObject => some (deliver (.object [] true) stack)
  | .keyOrClose, .string key => some (stack, .colon [] key)
  | .key members, .string key => some (stack, .colon members key)
  | .colon members key, .colon => some (.object members key :: stack, .value)
  | .more, .comma => some (stack, .value)
  | .moreMembers members, .comma => some (stack, .key members)
  | .moreMembers members, .closeObject => some (deliver (.object members.reverse true) stack)
  | _, _ => none

/-- Reads tokens in the middle of a value. -/
def build (stack : List Frame) (expect : Expect) : List Token → Document
  | [] => ⟨giveUp stack expect, true⟩
  | t :: rest =>
    match step? stack expect t with
    | some (stack, expect) => build stack expect rest
    | none => ⟨giveUp stack expect, false⟩

/-- The value of a text. -/
def parse (s : String) : Document := build [] .value (Token.scan s)

end VaultIndex.Json
