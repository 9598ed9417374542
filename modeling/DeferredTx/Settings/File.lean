import DeferredTx.Text.Hex

/-!
# The settings file

A settings file holds one JSON value: an object with some of the three settings, or a list of all
three in order. A setting may be null, which leaves it open. Unknown or repeated names, values of
another type, and anything behind the value make the file unreadable.

* `FileSettings`: what a file says, setting by setting.
* `FileSettings.read?`: the settings in the text of a file.
-/

namespace DeferredTx

/-- What a settings file says; `none` where it leaves a setting open. -/
structure FileSettings where
  dsn : Option String := none
  smartCommit : Option Bool := none
  autoCommit : Option Bool := none
  deriving DecidableEq, Repr

namespace FileSettings

/-- A value in a settings file. -/
inductive Value where
  | null
  | bool (b : Bool)
  | text (s : String)
  deriving DecidableEq, Repr

/-- The text without blanks in front; JSON knows four blanks. -/
def skipBlanks (cs : List Char) : List Char :=
  cs.dropWhile fun c => c == ' ' || c == '\n' || c == '\r' || c == '\t'

/-- What stands behind `start` in a text that begins with it. -/
def behind? (start : String) (cs : List Char) : Option (List Char) :=
  if start.toList.isPrefixOf cs then some (cs.drop start.length) else none

/-- The inside of a string up to its closing quote, still with its escapes, and what follows. A
string holds no control characters. -/
def rawString? : List Char → Option (List Char × List Char)
  | [] => none
  | c :: r =>
    if c = '"' then some ([], r)
    else if c.toNat < 0x20 then none
    else if c = '\\' then
      match r with
      | e :: r' => (rawString? r').map fun p => (c :: e :: p.1, p.2)
      | [] => none
    else (rawString? r).map fun p => (c :: p.1, p.2)

/-- The characters behind a backslash that stand for another character. -/
def escapes : List (Char × Char) :=
  [('"', '"'), ('\\', '\\'), ('/', '/'), ('b', '\x08'), ('f', '\x0c'), ('n', '\n'), ('r', '\r'),
   ('t', '\t')]

/-- The number written by four digits of base sixteen. -/
def unit? (a b c d : Char) : Option Nat := do
  let w ← Text.hexDigit? a
  let x ← Text.hexDigit? b
  let y ← Text.hexDigit? c
  let z ← Text.hexDigit? d
  return ((w * 16 + x) * 16 + y) * 16 + z

/-- The text that the inside of a string stands for. A character beyond the first plane is escaped
as a pair of units; half a pair stands for nothing. -/
def unescape? : List Char → Option (List Char)
  | [] => some []
  | '\\' :: 'u' :: a :: b :: c :: d :: r =>
    match unit? a b c d with
    | none => none
    | some n =>
      if 0xD800 ≤ n ∧ n < 0xDC00 then
        match r with
        | '\\' :: 'u' :: a' :: b' :: c' :: d' :: r' =>
          match unit? a' b' c' d' with
          | none => none
          | some m =>
            if 0xDC00 ≤ m ∧ m < 0xE000 then
              (unescape? r').map
                (Char.ofNat (0x10000 + (n - 0xD800) * 0x400 + (m - 0xDC00)) :: ·)
            else none
        | _ => none
      else if 0xDC00 ≤ n ∧ n < 0xE000 then none
      else (unescape? r).map (Char.ofNat n :: ·)
  | c :: r =>
    if c = '\\' then
      match r with
      | e :: r' =>
        match escapes.find? fun p => p.1 == e with
        | some p => (unescape? r').map (p.2 :: ·)
        | none => none
      | [] => none
    else (unescape? r).map (c :: ·)

/-- A string at the start of a text, and what follows it. -/
def string? (cs : List Char) : Option (String × List Char) := do
  let inner ← behind? "\"" cs
  let (raw, rest) ← rawString? inner
  let text ← unescape? raw
  return (String.ofList text, rest)

/-- A value at the start of a text, and what follows it. -/
def value? (cs : List Char) : Option (Value × List Char) :=
  match behind? "null" cs, behind? "true" cs, behind? "false" cs with
  | some rest, _, _ => some (.null, rest)
  | _, some rest, _ => some (.bool true, rest)
  | _, _, some rest => some (.bool false, rest)
  | none, none, none => (string? cs).map fun p => (.text p.1, p.2)

/-- Between `left + 1` and one members of an object up to its closing brace, and what follows. -/
def members? : Nat → List Char → Option (List (String × Value) × List Char)
  | left, cs => do
    let (name, afterName) ← string? (skipBlanks cs)
    let afterColon ← behind? ":" (skipBlanks afterName)
    let (value, rest) ← value? (skipBlanks afterColon)
    match behind? "\x7d" (skipBlanks rest), left with
    | some tail, _ => return ([(name, value)], tail)
    | none, 0 => none
    | none, left + 1 =>
      let next ← behind? "," (skipBlanks rest)
      let (more, tail) ← members? left next
      return ((name, value) :: more, tail)

/-- Exactly `more + 1` items of a list up to its closing bracket, and what follows. -/
def items? : Nat → List Char → Option (List Value × List Char)
  | more, cs => do
    let (value, rest) ← value? (skipBlanks cs)
    match more with
    | 0 => return ([value], ← behind? "]" (skipBlanks rest))
    | more + 1 =>
      let next ← behind? "," (skipBlanks rest)
      let (others, tail) ← items? more next
      return (value :: others, tail)

/-- A value that must be a text or null. -/
def Value.text? : Value → Option (Option String)
  | .null => some none
  | .text s => some (some s)
  | .bool _ => none

/-- A value that must be a boolean or null. -/
def Value.bool? : Value → Option (Option Bool)
  | .null => some none
  | .bool b => some (some b)
  | .text _ => none

/-- The names of the settings. -/
def names : List String := ["dsn", "smart_commit", "auto_commit"]

/-- The settings from the values of all three, in order. -/
def ofValues? : List Value → Option FileSettings
  | [dsn, smart, auto] => do
    return ⟨← dsn.text?, ← smart.bool?, ← auto.bool?⟩
  | _ => none

/-- The settings from named values; a setting that is not named is left open. -/
def ofMembers? (members : List (String × Value)) : Option FileSettings :=
  let given := members.map (·.1)
  if given.Nodup ∧ given.all (names.contains ·) then
    ofValues? (names.map fun n => ((members.find? fun m => m.1 == n).map (·.2)).getD .null)
  else none

/-- The settings in an object, behind its opening brace, and what follows it. -/
def object? (inner : List Char) : Option (FileSettings × List Char) :=
  match behind? "\x7d" (skipBlanks inner) with
  | some rest => some ({}, rest)
  | none => do
    let (members, rest) ← members? (names.length - 1) inner
    let settings ← ofMembers? members
    return (settings, rest)

/-- The settings in a list, behind its opening bracket, and what follows it. -/
def list? (inner : List Char) : Option (FileSettings × List Char) := do
  let (values, rest) ← items? (names.length - 1) inner
  let settings ← ofValues? values
  return (settings, rest)

/-- The settings in the text of a file. -/
def read? (text : String) : Option FileSettings :=
  let cs := skipBlanks text.toList
  let found := match behind? "\x7b" cs, behind? "[" cs with
    | some inner, _ => object? inner
    | none, some inner => list? inner
    | none, none => none
  match found with
  | some (settings, rest) => if (skipBlanks rest).isEmpty then some settings else none
  | none => none

end FileSettings
end DeferredTx
