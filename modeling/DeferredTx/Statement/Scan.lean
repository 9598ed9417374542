/-!
# Scanning SQL text

The scanner knows comments and quoted literals and nothing else. It reads a text from left to right,
one character at a time, and keeps what stands outside comments.

* `Mode`: what the text read so far leaves open.
* `advance`: whether the next character is kept, and the mode behind it.
* `scan`: the characters kept from a mode on, or `none` if a literal is not closed.
* `uncommented`: `scan` from the start of a text.

A line comment runs from a hash or two hyphens up to the next line feed, which is kept. A block
comment ends at the first star and slash behind its opening; comments do not nest. A literal opens
with one of three quotes, or with three equal ones, and a backslash in it protects the next
character. Only a literal in triple quotes may hold a line break.
-/

namespace DeferredTx.Statement

/-- The quotes that open a literal: single, double and backtick. -/
def isQuote (c : Char) : Bool :=
  c == '\'' || c == '"' || c == '\x60'

/-- The characters that end a line. -/
def isLineBreak (c : Char) : Bool :=
  c == '\n' || c == '\r'

/-- What the text read so far leaves open. -/
inductive Mode where
  /-- Neither a comment nor a literal. -/
  | code
  /-- A comment that ends with the line. -/
  | lineComment
  /-- The star that completes the opening of a block comment comes next. -/
  | blockOpening
  /-- A comment that ends with a star and a slash. -/
  | blockComment
  /-- The slash that completes the end of a block comment comes next. -/
  | blockClosing
  /-- A literal with its quote, whether it is in triple quotes, and whether a backslash protects
  the next character. -/
  | literal (quote : Char) (triple escaped : Bool)
  /-- As many further quotes complete the opening of a literal in triple quotes. -/
  | tripleOpening (quote : Char) (more : Nat)
  /-- As many further quotes complete the end of a literal in triple quotes. -/
  | tripleClosing (more : Nat)
  deriving DecidableEq, Repr

/-- Whether a text that ends in this mode leaves a literal open. -/
def Mode.inLiteral : Mode → Bool
  | .literal .. | .tripleOpening .. => true
  | _ => false

/-- Reads `c` in front of `rest`: whether it is kept, and the mode behind it. There is no answer for
a line break in a literal without triple quotes. -/
def advance (m : Mode) (c : Char) (rest : List Char) : Option (Bool × Mode) :=
  match m with
  | .code =>
    if c = '#' ∨ c = '-' ∧ rest.head? = some '-' then some (false, .lineComment)
    else if c = '/' ∧ rest.head? = some '*' then some (false, .blockOpening)
    else if isQuote c then
      if rest.take 2 = [c, c] then some (true, .tripleOpening c 1)
      else some (true, .literal c false false)
    else some (true, .code)
  | .lineComment => if c = '\n' then some (true, .code) else some (false, .lineComment)
  | .blockOpening => some (false, .blockComment)
  | .blockComment =>
    if c = '*' ∧ rest.head? = some '/' then some (false, .blockClosing)
    else some (false, .blockComment)
  | .blockClosing => some (false, .code)
  | .tripleOpening q (more + 1) => some (true, .tripleOpening q more)
  | .tripleOpening q 0 => some (true, .literal q true false)
  | .tripleClosing (more + 1) => some (true, .tripleClosing more)
  | .tripleClosing 0 => some (true, .code)
  | .literal q triple escaped =>
    if isLineBreak c && !triple then none
    else if escaped then some (true, .literal q triple false)
    else if c = '\\' then some (true, .literal q triple true)
    else if c = q then
      if !triple then some (true, .code)
      else if rest.take 2 = [q, q] then some (true, .tripleClosing 1)
      else some (true, .literal q true false)
    else some (true, .literal q triple false)

/-- The characters kept from mode `m` on; `none` if a literal is not closed. -/
def scan (m : Mode) : List Char → Option (List Char)
  | [] => if m.inLiteral then none else some []
  | c :: rest =>
    match advance m c rest with
    | none => none
    | some (kept, next) => (scan next rest).map fun cs => if kept then c :: cs else cs

/-- The text without its comments; `none` if one of its literals is not closed. -/
def uncommented (cs : List Char) : Option (List Char) :=
  scan .code cs

end DeferredTx.Statement
