import VaultIndex.Url.Host

/-!
# URLs

Absolute URLs in their normal form: the scheme and a domain name in lowercase, no default port, no
dot segments, and every part escaped.
-/

namespace VaultIndex

/-- The part of a URL that names a server. -/
structure UrlAuthority where
  username : List Char := []
  /-- Empty where there is none. -/
  password : List Char := []
  host : UrlHost
  /-- `none` for the default port of the scheme. -/
  port : Option Nat := none
deriving DecidableEq, Inhabited

inductive UrlPath where
  /-- A path that is not made of segments. -/
  | plain (text : List Char)
  | segments (parts : List (List Char))
deriving DecidableEq, Inhabited

structure Url where
  scheme : List Char
  authority : Option UrlAuthority
  path : UrlPath
  query : Option (List Char)
  fragment : Option (List Char)
deriving DecidableEq, Inhabited

namespace Url

/-- The schemes whose URLs always name a server, with their default ports. -/
def specialSchemes : List (String × Nat) :=
  [("http", 80), ("https", 443), ("ws", 80), ("wss", 443), ("ftp", 21)]

/-- The default port of a scheme. -/
def defaultPort? (scheme : List Char) : Option Nat :=
  (specialSchemes.find? (·.1.toList = scheme)).map (·.2)

def isFile (scheme : List Char) : Bool := scheme = ['f', 'i', 'l', 'e']

/-- Whether a scheme is one of the web's, in which backslashes are slashes. -/
def isSpecial (scheme : List Char) : Bool := (defaultPort? scheme).isSome || isFile scheme

/-! ### Reading -/

/-- Control characters and blanks around a URL count for nothing. -/
def isTrimmed (c : Char) : Bool := c.toNat ≤ 0x20

/-- A URL without the characters that are passed over. -/
def cleaned (s : String) : List Char :=
  let front := s.toList.dropWhile isTrimmed
  let trimmed := (front.reverse.dropWhile isTrimmed).reverse
  trimmed.filter fun c => c ≠ '\t' ∧ c ≠ '\n' ∧ c ≠ '\r'

/-- Whether a character may follow the first letter of a scheme. -/
def isSchemeChar (c : Char) : Bool := c.isAlphanum || c = '+' || c = '-' || c = '.'

/-- Splits the scheme off, in lowercase. -/
def splitScheme? (cs : List Char) : Option (List Char × List Char) :=
  match cut ':' cs with
  | (first :: more, some rest) =>
    if first.isAlpha ∧ more.all isSchemeChar then some ((first :: more).map Char.toLower, rest)
    else none
  | _ => none

/-- Whether a character separates segments. -/
def isSlash (special : Bool) (c : Char) : Bool := c = '/' || (special && c = '\\')

/-- Splits user name and password. -/
def readUserinfo (cs : List Char) : List Char × List Char :=
  let (name, password?) := cut ':' cs
  (escape .userinfo name, escape .userinfo (password?.getD []))

/-- Splits at the first colon outside of brackets. -/
def cutPort (bracketed : Bool) : List Char → List Char × Option (List Char)
  | [] => ([], none)
  | c :: rest =>
    if c = ':' ∧ ¬bracketed then ([], some rest)
    else
      let bracketed := if c = '[' then true else if c = ']' then false else bracketed
      let (host, port?) := cutPort bracketed rest
      (c :: host, port?)

/-- Reads a port; no digits are the default one. -/
def readPort? (scheme cs : List Char) : Option (Option Nat) := do
  let n ← Digits.read? 10 cs
  guard (n < UInt16.size)
  return if cs.isEmpty ∨ defaultPort? scheme = some n then none else some n

/-- Reads what stands between the double slash and the path. -/
def readAuthority? (scheme cs : List Char) : Option UrlAuthority := do
  let (userinfo?, server) := cutLast '@' cs
  let (username, password) := readUserinfo (userinfo?.getD [])
  let (host, port?) := cutPort false server
  if host.isEmpty then
    guard (!isSpecial scheme ∧ userinfo?.isNone ∧ port?.isNone)
    return { host := .other [] }
  else
    return { username, password, host := ← UrlHost.read? (isSpecial scheme) host,
             port := ← readPort? scheme (port?.getD []) }

/-- A segment that stands for its directory. -/
def isDot (segment : List Char) : Bool :=
  [['.'], ['%', '2', 'e']].contains (segment.map Char.toLower)

/-- A segment that stands for the directory above. -/
def isDoubleDot (segment : List Char) : Bool :=
  let s := segment.map Char.toLower
  s = ['.', '.'] || s = ['.', '%', '2', 'e'] || s = ['%', '2', 'e', '.'] ||
    s = ['%', '2', 'e', '%', '2', 'e']

/-- Takes further segments in behind the ones read so far. -/
def resolve (read : List (List Char)) : List (List Char) → List (List Char)
  | [] => read
  | segment :: rest =>
    let next := if isDoubleDot segment then read.dropLast
      else if isDot segment then read else read ++ [escape .path segment]
    if rest.isEmpty ∧ (isDot segment ∨ isDoubleDot segment) then next ++ [[]]
    else resolve next rest

/-- Reads the segments behind a leading slash. -/
def readSegments (special : Bool) (cs : List Char) : UrlPath :=
  .segments (resolve [] (splitOn '/' (cs.map fun c => if isSlash special c then '/' else c)))

/-- Reads a path that starts with a slash or is empty; the web's schemes have no empty path. -/
def readPath (special : Bool) : List Char → UrlPath
  | [] => if special then .segments [[]] else .segments []
  | c :: rest => readSegments special (if isSlash special c then rest else c :: rest)

/-- Reads what stands behind the slashes of a URL with a server. -/
def readServer? (scheme cs : List Char) : Option (Option UrlAuthority × UrlPath) := do
  let special := isSpecial scheme
  let authority ← readAuthority? scheme (cs.takeWhile fun c => !isSlash special c)
  return (some authority, readPath special (cs.dropWhile fun c => !isSlash special c))

/-- Reads the host of a file, which may be empty. -/
def readFileHost? (cs : List Char) : Option UrlAuthority := do
  if cs.isEmpty then return { host := .other [] }
  let host ← UrlHost.read? true cs
  return { host := if host = .domain "localhost".toList then .other [] else host }

/-- Reads what stands behind the colon of a file's URL. -/
def readFile? (cs : List Char) : Option (Option UrlAuthority × UrlPath) :=
  match cs with
  | a :: b :: rest =>
    if isSlash true a ∧ isSlash true b then do
      let authority ← readFileHost? (rest.takeWhile fun c => !isSlash true c)
      return (some authority, readPath true (rest.dropWhile fun c => !isSlash true c))
    else some (some { host := .other [] }, readPath true cs)
  | cs => some (some { host := .other [] }, readPath true cs)

/-- Reads what stands behind the colon, up to query and fragment. -/
def readHierarchy? (scheme cs : List Char) : Option (Option UrlAuthority × UrlPath) :=
  if isFile scheme then readFile? cs
  else if isSpecial scheme then readServer? scheme (cs.dropWhile (isSlash true))
  else match cs with
    | '/' :: '/' :: rest => readServer? scheme rest
    | '/' :: rest => some (none, readPath false ('/' :: rest))
    | cs => some (none, .plain (escape .control cs))

/-- Reads an absolute URL. -/
def ofText? (s : String) : Option Url := do
  let (scheme, rest) ← splitScheme? (cleaned s)
  let (rest, fragment?) := cut '#' rest
  let (rest, query?) := cut '?' rest
  let (authority, path) ← readHierarchy? scheme rest
  let querySet := if isSpecial scheme then EscapeSet.specialQuery else EscapeSet.query
  return { scheme, authority, path, query := query?.map (escape querySet),
           fragment := fragment?.map (escape .fragment) }

/-! ### Writing -/

/-- User name and password in front of a host. -/
def userinfoChars (a : UrlAuthority) : List Char :=
  if a.username.isEmpty ∧ a.password.isEmpty then []
  else a.username ++ (if a.password.isEmpty then [] else ':' :: a.password) ++ ['@']

def authorityChars (a : UrlAuthority) : List Char :=
  '/' :: '/' :: (userinfoChars a ++ a.host.chars ++
    match a.port with
    | some port => ':' :: Digits.write 10 port
    | none => [])

/-- The characters of a path; without a server a path does not start with two slashes. -/
def pathChars (hasAuthority : Bool) : UrlPath → List Char
  | .plain text => text
  | .segments parts =>
    let chars := parts.flatMap ('/' :: ·)
    if !hasAuthority ∧ parts.length > 1 ∧ parts.head? = some [] then '/' :: '.' :: chars else chars

/-- A part behind its mark. -/
def markedChars (mark : Char) : Option (List Char) → List Char
  | some part => mark :: part
  | none => []

/-- The text of a URL. -/
def text (u : Url) : String :=
  String.ofList (u.scheme ++ ':' :: ((u.authority.map authorityChars).getD [] ++
    pathChars u.authority.isSome u.path ++ markedChars '?' u.query ++ markedChars '#' u.fragment))

end Url

end VaultIndex
