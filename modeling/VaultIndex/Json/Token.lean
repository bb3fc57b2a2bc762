/-!
# JSON tokens

Splitting a JSON text into tokens, one character at a time. Scanning stops at the first character
that no token can hold.
-/

namespace VaultIndex.Json

inductive Token where
  | openArray
  | closeArray
  | openObject
  | closeObject
  | comma
  | colon
  | null
  | bool (value : Bool)
  | number (written : List Char)
  | string (written : List Char)
  /-- What follows is no token. -/
  | bad
deriving DecidableEq

namespace Token

/-- How far a number has been read. -/
inductive NumberPhase where
  | minus
  /-- A leading zero, which no digit may follow. -/
  | zero
  | whole
  | point
  | fraction
  | mark
  | markSign
  | exponent
deriving DecidableEq

/-- Whether a number may end in a phase. -/
def NumberPhase.isComplete : NumberPhase → Bool
  | zero | whole | fraction | exponent => true
  | minus | point | mark | markSign => false

/-- The phase behind the next character of a number, `none` where the number does not go on. -/
def NumberPhase.next? (phase : NumberPhase) (c : Char) : Option NumberPhase :=
  match phase with
  | minus => if c = '0' then some zero else if c.isDigit then some whole else none
  | zero => if c = '.' then some point else if c = 'e' ∨ c = 'E' then some mark else none
  | whole =>
    if c.isDigit then some whole
    else if c = '.' then some point else if c = 'e' ∨ c = 'E' then some mark else none
  | point => if c.isDigit then some fraction else none
  | fraction =>
    if c.isDigit then some fraction else if c = 'e' ∨ c = 'E' then some mark else none
  | mark =>
    if c.isDigit then some exponent else if c = '+' ∨ c = '-' then some markSign else none
  | markSign => if c.isDigit then some exponent else none
  | exponent => if c.isDigit then some exponent else none

/-- How far a string has been read. -/
inductive StringPhase where
  | plain
  | backslash
  /-- So many hexadecimal digits are still to come. -/
  | hex (missing : Nat)
deriving DecidableEq

/-- What the scanner is in the middle of. -/
inductive Scan where
  | between
  /-- A fixed word, and what is missing of it. -/
  | word (missing : List Char) (token : Token)
  /-- A number; its characters so far stand in reverse. -/
  | number (phase : NumberPhase) (seen : List Char)
  /-- A string; its characters so far stand in reverse. -/
  | string (phase : StringPhase) (seen : List Char)
  /-- Nothing more is read. -/
  | stopped

/-- Whether a character may stand between tokens. -/
def isBlank (c : Char) : Bool := c = ' ' || c = '\t' || c = '\n' || c = '\r'

/-- Whether a character is a hexadecimal digit. -/
def isHexDigit (c : Char) : Bool :=
  c.isDigit || ('a' ≤ c && c ≤ 'f') || ('A' ≤ c && c ≤ 'F')

/-- A character that no token starts with. -/
def reject : List Token × Scan := ([bad], .stopped)

/-- One character between tokens. -/
def start (c : Char) : List Token × Scan :=
  if isBlank c then ([], .between)
  else match c with
    | '[' => ([openArray], .between)
    | ']' => ([closeArray], .between)
    | '{' => ([openObject], .between)
    | '}' => ([closeObject], .between)
    | ',' => ([comma], .between)
    | ':' => ([colon], .between)
    | '"' => ([], .string .plain [])
    | 'n' => ([], .word ['u', 'l', 'l'] null)
    | 't' => ([], .word ['r', 'u', 'e'] (bool true))
    | 'f' => ([], .word ['a', 'l', 's', 'e'] (bool false))
    | '-' => ([], .number .minus ['-'])
    | '0' => ([], .number .zero ['0'])
    | c => if c.isDigit then ([], .number .whole [c]) else reject

/-- One character of a string. -/
def stepString (phase : StringPhase) (seen : List Char) (c : Char) : List Token × Scan :=
  match phase with
  | .plain =>
    if c = '"' then ([string seen.reverse], .between)
    else if c = '\\' then ([], .string .backslash (c :: seen))
    else if c.toNat < 0x20 then reject
    else ([], .string .plain (c :: seen))
  | .backslash =>
    if c = 'u' then ([], .string (.hex 4) (c :: seen))
    else if ['"', '\\', '/', 'b', 'f', 'n', 'r', 't'].contains c then
      ([], .string .plain (c :: seen))
    else reject
  | .hex missing =>
    if isHexDigit c then
      ([], .string (if missing ≤ 1 then .plain else .hex (missing - 1)) (c :: seen))
    else reject

/-- One character of a text: the tokens that it completes, and what is read next. -/
def step : Scan → Char → List Token × Scan
  | .between, c => start c
  | .word [] token, c => let (tokens, next) := start c; (token :: tokens, next)
  | .word [w] token, c => if c = w then ([token], .between) else reject
  | .word (w :: missing) token, c => if c = w then ([], .word missing token) else reject
  | .number phase seen, c =>
    match phase.next? c with
    | some next => ([], .number next (c :: seen))
    | none =>
      if phase.isComplete && !(phase = .zero && c.isDigit) then
        let (tokens, next) := start c
        (number seen.reverse :: tokens, next)
      else reject
  | .string phase seen, c => stepString phase seen c
  | .stopped, _ => ([], .stopped)

/-- The tokens that the end of a text completes. -/
def finish : Scan → List Token
  | .between | .stopped => []
  | .number phase seen => if phase.isComplete then [number seen.reverse] else [bad]
  | .word .. | .string .. => [bad]

/-- The tokens of a text, read from the middle of one. -/
def scanFrom : Scan → List Char → List Token
  | state, [] => finish state
  | state, c :: rest => (step state c).1 ++ scanFrom (step state c).2 rest

/-- The tokens of a text. -/
def scan (s : String) : List Token := scanFrom .between s.toList

end Token

end VaultIndex.Json
