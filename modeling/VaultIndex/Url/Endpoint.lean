/-!
# Collector endpoints

Which texts can name the collector of telemetry: an authority alone, or one behind a scheme, with a
path and a query if need be. Hosts are not looked at closely.
-/

namespace VaultIndex.Endpoint

/-- Whether a character may stand in an authority. -/
def isAuthorityChar (c : Char) : Bool :=
  c.isAlphanum || ['!', '$', '&', '\x27', '(', ')', '*', '+', ',', '-', '.', ':', ';', '=', '@',
    '[', ']', '_', '~'].contains c

/-- Whether a character may stand in a path; what is not ASCII may. -/
def isPathChar (c : Char) : Bool :=
  let n := c.toNat
  n = 0x21 || (0x24 ≤ n && n ≤ 0x3B) || n = 0x3D || (0x40 ≤ n && n ≤ 0x5F) ||
    (0x61 ≤ n && n ≤ 0x7A) || n = 0x7C || 0x7E ≤ n || ['"', '\x7b', '\x7d'].contains c

/-- Whether a character may stand in a query. -/
def isQueryChar (c : Char) : Bool :=
  let n := c.toNat
  n = 0x21 || (0x24 ≤ n && n ≤ 0x3B) || n = 0x3D || 0x3F ≤ n

/-- Whether a character may stand in a scheme. -/
def isSchemeChar (c : Char) : Bool := c.isAlphanum || c = '+' || c = '-' || c = '.'

/-- What is known of an authority up to some character of it. -/
structure Authority where
  colons : Nat := 0
  opened : Bool := false
  closed : Bool := false
  hasPercent : Bool := false
  /-- Whether the last character ends the credentials. -/
  atSign : Bool := false

/-- The most colons in a row of pieces. -/
def maxColons : Nat := 8

namespace Authority

/-- Goes on by one character. What comes before credentials or brackets end is forgotten. -/
def step (a : Authority) (c : Char) : Option Authority :=
  let a := { a with atSign := false }
  if c = ':' then if maxColons ≤ a.colons then none else some { a with colons := a.colons + 1 }
  else if c = '[' then if a.hasPercent || a.opened then none else some { a with opened := true }
  else if c = ']' then
    if !a.opened || a.closed then none
    else some { a with closed := true, colons := 0, hasPercent := false }
  else if c = '@' then some { a with colons := 0, hasPercent := false, atSign := true }
  else if c = '%' then some { a with hasPercent := true }
  else if isAuthorityChar c then some a else none

/-- Whether an authority may end here. -/
def isComplete (a : Authority) : Bool :=
  a.opened == a.closed && a.colons ≤ 1 && !a.atSign && !a.hasPercent

end Authority

/-- Whether characters are an authority. -/
def isAuthority (cs : List Char) : Bool :=
  match cs.foldlM Authority.step {} with
  | some a => a.isComplete
  | none => false

/-- Whether a character ends an authority. -/
def endsAuthority (c : Char) : Bool := c = '/' || c = '?' || c = '#'

/-- Whether characters are a path with an optional query; a fragment may be anything. -/
def isPathAndQuery (cs : List Char) : Bool :=
  let path := cs.takeWhile fun c => c ≠ '?' ∧ c ≠ '#'
  path.all isPathChar &&
    match cs.drop path.length with
    | '?' :: query => (query.takeWhile (· ≠ '#')).all isQueryChar
    | _ => true

/-- What stands behind the mark of a scheme. -/
def behindScheme? (cs : List Char) : Option (List Char × List Char) :=
  let scheme := cs.takeWhile isSchemeChar
  match cs.drop scheme.length with
  | ':' :: '/' :: '/' :: rest => some (scheme, rest)
  | _ => none

/-- The longest scheme. -/
def maxScheme : Nat := 64

/-- The longest endpoint, in bytes. -/
def maxLength : Nat := 65534

/-- Whether a text can name a collector. -/
def isValid (s : String) : Bool :=
  let cs := s.toList
  s.utf8ByteSize ≤ maxLength &&
    match cs with
    | [] => false
    | ['/'] | ['*'] => true
    | '/' :: _ => isPathAndQuery cs
    | _ =>
      match behindScheme? cs with
      | none => isAuthority cs
      | some (scheme, rest) =>
        let authority := rest.takeWhile fun c => !endsAuthority c
        scheme.length ≤ maxScheme && !authority.isEmpty && isAuthority authority &&
          isPathAndQuery (rest.drop authority.length)

end VaultIndex.Endpoint
