import DeferredTx.Address.Host

/-!
# URLs

A URL is read into its parts, each percent-encoded as it is written, and written from them.

* `Url.read`: the URL that a text stands for.
* `Url.setPassword?`: a URL with another password.
* `Url.render`: the text of a URL.

A scheme of the web always has a host, takes backslashes for slashes, and drops its usual port. Under
any other scheme two slashes introduce a host, which may be empty if there is neither a user nor a
port; without a slash the rest is an opaque path.
-/

namespace DeferredTx.Address

open Text

/-- A URL by its parts. -/
structure Url where
  scheme : List Char
  user : List Char := []
  /-- The password; an empty one counts as none. -/
  password : Option (List Char) := none
  /-- Whether two slashes introduce a host. -/
  hasAuthority : Bool := false
  /-- The host, unless it is empty. -/
  host : Option Host := none
  port : Option Nat := none
  path : List Char := []
  query : Option (List Char) := none
  fragment : Option (List Char) := none
  deriving DecidableEq, Repr

namespace Url

/-- The schemes of the web, with the ports that they drop. -/
def webPorts : List (List Char × Nat) :=
  [("http".toList, 80), ("https".toList, 443), ("ws".toList, 80), ("wss".toList, 443),
   ("ftp".toList, 21)]

/-- The scheme of local files. -/
def fileScheme : List Char := "file".toList

/-- Whether a scheme is one of the web's or that of files. -/
def isSpecial (scheme : List Char) : Bool :=
  scheme == fileScheme || webPorts.any fun p => p.1 == scheme

/-- The text without control characters and blanks at its ends, and without tabs and line breaks. -/
def tidy (cs : List Char) : List Char :=
  let outer (c : Char) : Bool := c.toNat ≤ 0x20
  (((cs.dropWhile outer).reverse.dropWhile outer).reverse).filter fun c =>
    !(c == '\t' || c == '\n' || c == '\r')

/-- The characters of a scheme behind its first letter. -/
def isSchemeChar (c : Char) : Bool :=
  c.isAlphanum || c == '+' || c == '-' || c == '.'

/-- The scheme in lower case, and what follows its colon. -/
def scheme? (cs : List Char) : Option (List Char × List Char) :=
  match splitAtFirst? ':' cs with
  | some (s, rest) =>
    if s.head?.any Char.isAlpha && s.all isSchemeChar then some (fold s, rest) else none
  | none => none

/-- Whether a character ends the part of a URL with user, host and port. -/
def endsAuthority (special : Bool) (c : Char) : Bool :=
  c == '/' || c == '?' || c == '#' || special && c == '\\'

/-- The host at the start of a text, up to a colon outside brackets, and what follows it. -/
def spanHost (inBrackets : Bool) : List Char → List Char × List Char
  | [] => ([], [])
  | c :: r =>
    if c = ':' ∧ !inBrackets then ([], c :: r)
    else
      let p := spanHost (c == '[' || inBrackets && c != ']') r
      (c :: p.1, p.2)

/-- The port behind a colon, and what follows it. Zeros in front do not count, and no digits mean no
port. -/
def readPort (cs : List Char) : Except UrlError (Option Nat × List Char) :=
  let digits := cs.takeWhile Char.isDigit
  let rest := cs.dropWhile Char.isDigit
  let port := (number? 10 digits).getD 0
  if 65535 < port then .error .badPort
  else if rest.head?.any fun c => !(endsAuthority true c) then .error .badPort
  else .ok (if digits.isEmpty then none else some port, rest)

/-- User and password of a text in front of an at sign. -/
def readUser (cs : List Char) : List Char × Option (List Char) :=
  let encode := Percent.encode Percent.userChars
  match splitAtFirst? ':' cs with
  | none => (encode cs, none)
  | some (user, password) => (encode user, if password.isEmpty then none else some (encode password))

/-- Whether a text names a drive: a letter and a colon or a bar. -/
def isDrive : List Char → Bool
  | [letter, mark] => letter.isAlpha && (mark == ':' || mark == '|')
  | _ => false

/-- The resolved segments of a path, the last one first. A segment of two dots takes back the one in
front of it unless that names a drive; one of a single dot stands for nothing; at the end either
leaves an empty segment. -/
def resolve : List (List Char) → List (List Char) → List (List Char)
  | done, [] => done
  | done, s :: rest =>
    let plain := fold s
    let dots (n : Nat) : Bool := dotForms n |>.any (· == plain)
    if dots 2 then
      let left := if done.head?.any isDrive then done else done.drop 1
      resolve (if rest.isEmpty then [] :: left else left) rest
    else if dots 1 then resolve (if rest.isEmpty then [] :: done else done) rest
    else resolve (s :: done) rest
where
  /-- The ways to write as many dots, in lower case. -/
  dotForms : Nat → List (List Char)
    | 0 => [[]]
    | n + 1 => (dotForms n).flatMap fun f => ['.' :: f, '%' :: '2' :: 'e' :: f]

/-- The path that a text stands for, with a slash in front of every segment. -/
def readPath (special : Bool) (cs : List Char) : List Char :=
  let isSlash (c : Char) : Bool := c == '/' || special && c == '\\'
  let inner := if cs.head?.any isSlash then cs.drop 1 else cs
  let segments := resolve [] (splitAll isSlash inner)
  segments.reverse.flatMap fun s => '/' :: Percent.encode Percent.pathChars s

/-- The path, query and fragment of a text, each still as written. -/
def splitTail (cs : List Char) : List Char × Option (List Char) × Option (List Char) :=
  let (front, fragment) := match splitAtFirst? '#' cs with
    | some (a, b) => (a, some b)
    | none => (cs, none)
  match splitAtFirst? '?' front with
  | some (path, query) => (path, some query, fragment)
  | none => (front, none, fragment)

/-- Adds path, query and fragment; `readPathAs` says how the path is read. -/
def withTail (u : Url) (readPathAs : List Char → List Char) (cs : List Char) : Url :=
  let (path, query, fragment) := splitTail cs
  { u with
    path := readPathAs path
    query := query.map (Percent.encode (Percent.queryChars (isSpecial u.scheme)))
    fragment := fragment.map (Percent.encode Percent.fragmentChars) }

/-- Reads what follows the two slashes in front of user and host. -/
def readAuthority (scheme cs : List Char) : Except UrlError Url := do
  let special := isSpecial scheme
  let authority := cs.takeWhile fun c => !endsAuthority special c
  let tail := cs.dropWhile fun c => !endsAuthority special c
  let (credentials, place) := match splitAtLast? '@' authority with
    | some (a, b) => (a, b)
    | none => ([], authority)
  if place.isEmpty && !tail.isEmpty && authority == ['@'] then throw .emptyHost
  let (user, password) := readUser credentials
  let (hostText, behind) := spanHost false place
  let host ← if hostText.isEmpty then
      if special || !behind.isEmpty || !user.isEmpty || password.isSome then throw .emptyHost
      else pure none
    else (Host.read special hostText).map some
  let (port, left) ← match behind with
    | [] => pure (none, [])
    | _ :: digits => readPort digits
  let usual := webPorts.any fun p => p.1 == scheme && some p.2 == port
  let path (p : List Char) : List Char := if p.isEmpty && !special then [] else readPath special p
  return withTail
    { scheme, user, password, hasAuthority := true, host, port := if usual then none else port }
    path (left ++ tail)

/-- Reads what follows the scheme of files: a host behind two slashes, or a path. -/
def readFile (cs : List Char) : Except UrlError Url :=
  let start : Url := { scheme := fileScheme, hasAuthority := true }
  if (cs.take 2).length = 2 ∧ (cs.take 2).all fun c => c == '/' || c == '\\' then
    let hostText := (cs.drop 2).takeWhile fun c => !endsAuthority true c
    let tail := (cs.drop 2).dropWhile fun c => !endsAuthority true c
    if hostText.isEmpty || isDrive hostText then .ok (start.withTail (readPath true) (hostText ++ tail))
    else (Host.read true hostText).map fun host =>
      { start with host := some host }.withTail (readPath true) tail
  else .ok (start.withTail (readPath true) cs)

/-- The URL that a text stands for. -/
def read (text : List Char) : Except UrlError Url :=
  match scheme? (tidy text) with
  | none => .error .noScheme
  | some (scheme, rest) =>
    if scheme = fileScheme then readFile rest
    else if isSpecial scheme then
      readAuthority scheme (rest.dropWhile fun c => c == '/' || c == '\\')
    else if rest.take 2 = ['/', '/'] then readAuthority scheme (rest.drop 2)
    else if rest.head? = some '/' then .ok (withTail { scheme } (readPath false) rest)
    else .ok (withTail { scheme } (Percent.encode Percent.controls) rest)

/-- Whether a host is there. -/
def hasHost (u : Url) : Bool :=
  u.host.any fun h => !h.render.isEmpty

/-- The URL with a password in place of its own. There has to be a host, and it must not be the URL of a
file. -/
def setPassword? (password : List Char) (u : Url) : Option Url :=
  if u.hasHost && u.scheme != fileScheme then
    some { u with password := some (Percent.encode Percent.userChars password) }
  else none

/-- The user and password in front of the host. -/
def renderUser (u : Url) : List Char :=
  let password := match u.password with
    | some p => ':' :: p
    | none => []
  if u.user.isEmpty && password.isEmpty then [] else u.user ++ password ++ ['@']

/-- The text of a URL. -/
def render (u : Url) : List Char :=
  let authority := if u.hasAuthority then
      ['/', '/'] ++ u.renderUser ++ (u.host.map Host.render).getD []
        ++ (u.port.map fun p => ':' :: Nat.toDigits 10 p).getD []
    else []
  u.scheme ++ [':'] ++ authority ++ u.path ++ (u.query.map ('?' :: ·)).getD []
    ++ (u.fragment.map ('#' :: ·)).getD []

end Url
end DeferredTx.Address
