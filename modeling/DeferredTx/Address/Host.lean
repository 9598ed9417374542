import DeferredTx.Address.Percent
import DeferredTx.Text.Ascii
import DeferredTx.Text.Split

/-!
# Hosts of URLs

A host is a name or an IPv6 address in brackets; under the schemes of the web it may also be an IPv4
address, which is written in its usual form.

* `Ipv6.read?`, `Ipv6.render`: eight groups of sixteen bits; the longest run of zeros is left out.
* `Ipv4.read?`, `Ipv4.render`: four bytes.
* `Host.read`: the host that a text stands for.
-/

namespace DeferredTx.Address

/-- Why a text is no URL. -/
inductive UrlError where
  | emptyHost
  | badPort
  | badIpv4
  | badIpv6
  | badHostCharacter
  | badDomain
  | noScheme
  deriving DecidableEq, Repr

/-- The wording of an error. -/
def UrlError.message : UrlError → String
  | .emptyHost => "empty host"
  | .badPort => "invalid port number"
  | .badIpv4 => "invalid IPv4 address"
  | .badIpv6 => "invalid IPv6 address"
  | .badHostCharacter => "invalid domain character"
  | .badDomain => "invalid international domain name"
  | .noScheme => "relative URL without a base"

/-- The number written by digits of a base, if the text is not empty and holds nothing else. -/
def number? (base : Nat) (cs : List Char) : Option Nat :=
  if cs.isEmpty then none
  else cs.foldl (fun acc c => do
    let n ← acc
    let d ← Text.hexDigit? c
    if d < base then some (n * base + d) else none) (some 0)

namespace Ipv6

/-- A group of one to four digits. -/
def group? (cs : List Char) : Option Nat :=
  if cs.length ≤ 4 then number? 16 cs else none

/-- A decimal byte without zeros in front. -/
def byte? (cs : List Char) : Option Nat :=
  if cs.length ≤ 3 ∧ (cs.head? = some '0' → cs.length = 1) then
    (number? 10 cs).filter (· ≤ 255)
  else none

/-- Two groups written as four decimal bytes. -/
def dotted? (cs : List Char) : Option (List Nat) :=
  match (Text.splitAll (· == '.') cs).map byte? with
  | [some a, some b, some c, some d] => some [a * 256 + b, c * 256 + d]
  | _ => none

/-- Groups between colons; the last one may be two groups written as decimal bytes. -/
def groups? : List (List Char) → Option (List Nat)
  | [] => some []
  | [last] => if '.' ∈ last then dotted? last else (group? last).map ([·])
  | g :: gs => do return (← group? g) :: (← groups? gs)

/-- The groups of one side of a double colon; no text means no groups. -/
def side? (cs : List Char) : Option (List Nat) :=
  if cs.isEmpty then some [] else groups? (Text.splitAll (· == ':') cs)

/-- The text cut at the first double colon. -/
def splitAtGap? : List Char → Option (List Char × List Char)
  | [] => none
  | c :: r =>
    if c = ':' ∧ r.head? = some ':' then some ([], r.drop 1)
    else (splitAtGap? r).map fun p => (c :: p.1, p.2)

/-- The eight groups of an address. A double colon stands for one or more groups of zero. -/
def read? (cs : List Char) : Option (List Nat) :=
  match splitAtGap? cs with
  | none => (groups? (Text.splitAll (· == ':') cs)).filter (·.length == 8)
  | some (left, right) =>
    if '.' ∈ left then none
    else do
      let l ← side? left
      let r ← side? right
      if l.length + r.length < 8 then
        some (l ++ List.replicate (8 - l.length - r.length) 0 ++ r)
      else none

/-- The number of zeros in front of each position and that of the longest run, as start and length;
of equal runs the first one counts. -/
def longestRun : List Nat → Nat → Nat × Nat
  | [], _ => (0, 0)
  | g :: gs, start =>
    let run := ((g :: gs).takeWhile (· == 0)).length
    let later := longestRun gs (start + 1)
    if later.2 ≤ run then (start, run) else later

/-- Groups with colons between them. -/
def joined (gs : List Nat) : List Char :=
  [':'].intercalate (gs.map Text.hex)

/-- The address with its longest run of two or more zeros left out. -/
def render (gs : List Nat) : List Char :=
  let (start, length) := longestRun gs 0
  if 2 ≤ length then joined (gs.take start) ++ [':', ':'] ++ joined (gs.drop (start + length))
  else joined gs

end Ipv6

namespace Ipv4

/-- A part of an address: decimal, octal behind a zero, or hexadecimal behind `0x`. -/
def part? : List Char → Option Nat
  | '0' :: x :: r =>
    if x = 'x' ∨ x = 'X' then (if r.isEmpty then some 0 else number? 16 r) else number? 8 (x :: r)
  | cs => number? 10 cs

/-- The labels of a domain, without the empty one behind a dot at the end. -/
def labels (cs : List Char) : List (List Char) :=
  let ls := Text.splitAll (· == '.') cs
  if 1 < ls.length ∧ ls.getLast? = some [] then ls.dropLast else ls

/-- Whether a domain has to be an address, since its last label is a number. -/
def looksLikeAddress (cs : List Char) : Bool :=
  match (labels cs).getLast? with
  | none => false
  | some l => (!l.isEmpty && l.all Char.isDigit)
    || (Text.startsWithFold ['0', 'x'] l && (part? l).isSome)

/-- The address that a domain stands for; its last part fills the bytes that are left. -/
def read? (cs : List Char) : Option Nat :=
  match (labels cs).mapM part? with
  | none => none
  | some parts =>
    if parts.length = 0 ∨ 4 < parts.length then none
    else
      let last := parts.getLastD 0
      let front := parts.dropLast
      if front.all (· ≤ 255) ∧ last < Nat.pow 256 (5 - parts.length) then
        some (front.foldl (fun n p => n * 256 + p) 0 * Nat.pow 256 (5 - parts.length) + last)
      else none

/-- The four bytes with dots between them. -/
def render (n : Nat) : List Char :=
  ['.'].intercalate ([n / 16777216, n / 65536 % 256, n / 256 % 256, n % 256].map (Nat.toDigits 10))

end Ipv4

/-- The host of a URL. -/
inductive Host where
  /-- A name as it is written in the URL. -/
  | name (cs : List Char)
  | ipv4 (address : Nat)
  | ipv6 (groups : List Nat)
  deriving DecidableEq, Repr

namespace Host

/-- The host as it is written in a URL. -/
def render : Host → List Char
  | name cs => cs
  | ipv4 a => Ipv4.render a
  | ipv6 gs => ['['] ++ Ipv6.render gs ++ [']']

/-- The characters that no host holds. -/
def isForbidden (c : Char) : Bool :=
  c ∈ ['\x00', '\t', '\n', '\r', ' ', '#', '/', ':', '<', '>', '?', '@', '[', '\\', ']', '^', '|']

/-- An address in brackets. -/
def bracketed (cs : List Char) : Except UrlError Host :=
  if cs.getLast? = some ']' then
    match Ipv6.read? (cs.drop 1).dropLast with
    | some gs => .ok (.ipv6 gs)
    | none => .error .badIpv6
  else .error .badIpv6

/-- A host under the schemes of the web: a domain in lower case or an address. -/
def domain (cs : List Char) : Except UrlError Host :=
  let d := Text.fold (Percent.decodeAscii cs)
  if d.any fun c => isForbidden c || Percent.controls c || c == '%' || 0x7F < c.toNat then
    .error .badDomain
  else if d.isEmpty then .error .emptyHost
  else if Ipv4.looksLikeAddress d then
    match Ipv4.read? d with
    | some a => .ok (.ipv4 a)
    | none => .error .badIpv4
  else .ok (.name d)

/-- The host that a text stands for; `special` under the schemes of the web. -/
def read (special : Bool) (cs : List Char) : Except UrlError Host :=
  if cs.head? = some '[' then bracketed cs
  else if special then domain cs
  else if cs.any isForbidden then .error .badHostCharacter
  else .ok (.name (Percent.encode Percent.controls cs))

end Host
end DeferredTx.Address
