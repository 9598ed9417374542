import DeferredTx.Sql.Dialect
import DeferredTx.Text.Ascii
import DeferredTx.Text.Hex
import DeferredTx.Text.Split

/-!
# Tokens of SQL text

A text is cut into tokens with gaps of blanks and comments in front of them, so that nothing of it is
lost. The last token is the end of the text, or `Lexeme.illegal` where it cannot be cut any further.

* `Lexeme`: what a token is.
* `gap?`: the length of the gap at the start of a text.
* `lexeme`: the token at the start of a text, and the length of what it takes.
* `tokens`: all tokens of a text.
* `Token.textOf`: the text that tokens have been cut from.
-/

namespace DeferredTx.Sql

/-- What a token is. -/
inductive Lexeme where
  /-- A keyword or a name without quotes. -/
  | word (text : String)
  /-- A name in quotes, with its opening quote. -/
  | name (quote : Char) (text : String)
  /-- A string, with its quote. -/
  | string (quote : Char) (text : String)
  /-- A text between dollar signs, with the tag inside them. -/
  | dollar (tag text : String)
  /-- Bytes written by digits of base sixteen. -/
  | bytes (digits : String)
  | number (text : String)
  | parameter (text : String)
  | symbol (text : String)
  /-- An operator of a dialect in which operators are free. -/
  | operator (text : String)
  /-- A semicolon, or the end of the text. -/
  | stop
  /-- What cannot be read. -/
  | illegal
  deriving DecidableEq, Repr

/-- A token with its text and the gap in front of it as they are written. -/
structure Token where
  lexeme : Lexeme
  gap : List Char
  text : List Char
  deriving DecidableEq, Repr

/-- What the text of a gap read so far leaves open. -/
inductive GapMode where
  | between
  | lineComment
  /-- A block comment of some depth whose star comes next. -/
  | opening (depth : Nat)
  | blockComment (depth : Nat)
  /-- The end of a block comment of some depth, whose slash comes next. -/
  | closing (depth : Nat)
  deriving DecidableEq, Repr

/-- Whether a comment up to the end of the line begins here. -/
def beginsLineComment (d : Dialect) (c : Char) (rest : List Char) : Bool :=
  d.hashComment && c == '#'
    || c == '-' && rest.head? == some '-' && (!d.dashNeedsBlank || (rest.drop 1).head? == some ' ')

/-- Whether a block comment begins here. Where comments may stay open, something has to follow. -/
def beginsBlockComment (d : Dialect) (c : Char) (rest : List Char) : Bool :=
  c == '/' && rest.head? == some '*' && (!d.openComments || 1 < rest.length)

/-- The length of the gap at the start of a text; `none` if a comment in it is not closed. -/
def gap? (d : Dialect) : GapMode → List Char → Option Nat
  | .blockComment _, [] => if d.openComments then some 0 else none
  | _, [] => some 0
  | .between, c :: r =>
    if d.isBlank c then (gap? d .between r).map (· + 1)
    else if beginsLineComment d c r then (gap? d .lineComment r).map (· + 1)
    else if beginsBlockComment d c r then (gap? d (.opening 1) r).map (· + 1)
    else some 0
  | .lineComment, c :: r =>
    let ends := c == '\n' || d.returnEndsComment && c == '\r'
    (gap? d (if ends then .between else .lineComment) r).map (· + 1)
  | .opening depth, _ :: r => (gap? d (.blockComment depth) r).map (· + 1)
  | .blockComment depth, c :: r =>
    let next : GapMode :=
      if c = '*' ∧ r.head? = some '/' then .closing depth
      else if d.nestedComments ∧ c = '/' ∧ r.head? = some '*' then .opening (depth + 1)
      else .blockComment depth
    (gap? d next r).map (· + 1)
  | .closing depth, _ :: r =>
    (gap? d (if depth ≤ 1 then .between else .blockComment (depth - 1)) r).map (· + 1)

/-- What a backslash in a string stands for together with the next character. -/
def unescaped (c : Char) : List Char :=
  if c = '0' then ['\x00'] else if c = 'a' then ['\x07'] else if c = 'b' then ['\x08']
  else if c = 'f' then ['\x0c'] else if c = 'n' then ['\n'] else if c = 'r' then ['\r']
  else if c = 't' then ['\t'] else if c = 'Z' then ['\x1a']
  else if c = '%' ∨ c = '_' then ['\\', c] else [c]

/-- The inside of a quoted text behind its opening quote, and the length of the text up to its
closing quote. A quote written twice stands for itself. -/
def quoted? (close : Char) (backslash : Bool) : List Char → Option (List Char × Nat)
  | [] => none
  | c :: r =>
    if c = close then
      match r with
      | e :: r' =>
        if e = close then (quoted? close backslash r').map fun p => (c :: p.1, p.2 + 2)
        else some ([], 1)
      | [] => some ([], 1)
    else if backslash && c == '\\' then
      match r with
      | e :: r' => (quoted? close backslash r').map fun p => (unescaped e ++ p.1, p.2 + 2)
      | [] => none
    else (quoted? close backslash r).map fun p => (c :: p.1, p.2 + 1)

/-- The exponent at the start of a text, if a digit follows its letter and sign. -/
def exponent (cs : List Char) : List Char :=
  match cs with
  | e :: r =>
    if e = 'e' ∨ e = 'E' then
      let sign := r.takeWhile fun c => c == '+' || c == '-'
      let digits := (r.drop sign.length).takeWhile Char.isDigit
      if sign.length ≤ 1 ∧ !digits.isEmpty then e :: sign ++ digits else []
    else []
  | [] => []

/-- The number at the start of a text: digits with at most one point among them, and an exponent. -/
def numeral (cs : List Char) : List Char :=
  let whole := cs.takeWhile Char.isDigit
  let point := if (cs.drop whole.length).head? = some '.' then ['.'] else []
  let fraction := (cs.drop (whole.length + point.length)).takeWhile Char.isDigit
  let plain := whole ++ point ++ fraction
  plain ++ exponent (cs.drop plain.length)

/-- The number, or the name that begins with digits, at the start of a text. -/
def numberLexeme (d : Dialect) (cs : List Char) : Lexeme × Nat :=
  let hex := (cs.drop 2).takeWhile fun c => (Text.hexDigit? c).isSome
  let plain := numeral cs
  let tail := (cs.drop plain.length).takeWhile d.continuesName
  if cs.take 2 = ['0', 'x'] ∨ (!d.hexBytes ∧ cs.take 2 = ['0', 'X'] ∧ !hex.isEmpty) then
    if d.hexBytes then (.bytes (String.ofList hex), hex.length + 2)
    else if hex.isEmpty || (cs.drop (hex.length + 2)).head?.any d.continuesName then (.illegal, 1)
    else (.number (String.ofList (cs.take (hex.length + 2))), hex.length + 2)
  else if plain = ['.'] then (.symbol ".", 1)
  else if tail.isEmpty then (.number (String.ofList plain), plain.length)
  else if d.strictNumbers then (.illegal, 1)
  else if d.digitNames ∧ plain.all fun c => c.isDigit || c == '.' then
    (.word (String.ofList (plain ++ tail)), plain.length + tail.length)
  else (.number (String.ofList plain), plain.length)

/-- What a dollar sign begins. -/
def dollarLexeme (d : Dialect) (rest : List Char) : Lexeme × Nat :=
  let part (c : Char) : Bool := c.isAlphanum || c == '_' || 0x7F < c.toNat
  match d.dollar with
  | .parameter =>
    let name := rest.takeWhile fun c => part c || c == '$'
    (.parameter (String.ofList ('$' :: name)), name.length + 1)
  | .text =>
    let tag := rest.takeWhile part
    if (rest.drop tag.length).head? = some '$' then
      let mark := '$' :: tag ++ ['$']
      match Text.before? mark (rest.drop (tag.length + 1)) with
      | some inner =>
        (.dollar (String.ofList tag) (String.ofList inner), 2 * mark.length + inner.length)
      | none => (.illegal, 1)
    else (.parameter (String.ofList ('$' :: tag)), tag.length + 1)

/-- The operators of two characters. -/
def longSymbols : List (List Char) :=
  [['<', '>'], ['!', '='], ['<', '='], ['>', '='], ['=', '='], ['|', '|'], ['<', '<'], ['>', '>'],
   ['-', '>'], [':', ':']]

/-- The characters of free operators. -/
def operatorChars : List Char :=
  ['+', '-', '*', '/', '<', '>', '=', '~', '!', '@', '#', '%', '^', '&', '|', '\x60', '?']

/-- The symbols that grow by further characters of operators where those are free. -/
def growingSymbols : List (List Char) :=
  [['<'], ['>'], ['-'], ['%'], ['#'], ['<', '>'], ['<', '='], ['>', '='], ['|', '|']]

/-- The symbol or operator at the start of `c :: rest`. -/
def symbolLexeme (d : Dialect) (c : Char) (rest : List Char) : Lexeme × Nat :=
  let symbol := if longSymbols.contains (c :: rest.take 1) then c :: rest.take 1 else [c]
  let more :=
    if d.freeOperators && growingSymbols.contains symbol then
      (rest.drop (symbol.length - 1)).takeWhile operatorChars.contains
    else []
  if d.freeOperators && (!more.isEmpty || symbol == ['#']) then
    (.operator (String.ofList (symbol ++ more)), symbol.length + more.length)
  else (.symbol (String.ofList symbol), symbol.length)

/-- The token at the start of `c :: rest`, and the length of what it takes. -/
def lexeme (d : Dialect) (c : Char) (rest : List Char) : Lexeme × Nat :=
  let close? := (d.nameQuotes.find? fun q => q.1 == c).map (·.2)
  if d.textQuotes.contains c then
    match quoted? c d.backslash rest with
    | some (text, n) => (.string c (String.ofList text), n + 1)
    | none => (.illegal, 1)
  else if let some close := close? then
    match quoted? close false rest with
    | some (text, n) => (.name c (String.ofList text), n + 1)
    | none => (.illegal, 1)
  else if (c == 'x' || c == 'X') && rest.head? == some '\'' then
    match quoted? '\'' false (rest.drop 1) with
    | some (text, n) => (.bytes (String.ofList text), n + 2)
    | none => (.illegal, 1)
  else if c.isDigit || c == '.' then numberLexeme d (c :: rest)
  else if d.startsName c then
    let more := rest.takeWhile d.continuesName
    (.word (String.ofList (c :: more)), more.length + 1)
  else if c == '$' then dollarLexeme d rest
  else if c == '?' && d.questionMark then
    let digits := rest.takeWhile Char.isDigit
    (.parameter (String.ofList (c :: digits)), digits.length + 1)
  else if c == ';' then (.stop, 1)
  else symbolLexeme d c rest

/-- The tokens of a text. -/
def tokens (d : Dialect) (cs : List Char) : List Token :=
  match gap? d .between cs with
  | none => [⟨.illegal, cs, []⟩]
  | some n =>
    match _h : cs.drop n with
    | [] => [⟨.stop, cs, []⟩]
    | c :: rest =>
      let (l, taken) := lexeme d c rest
      if l = .illegal then [⟨.illegal, cs.take n, c :: rest⟩]
      else ⟨l, cs.take n, c :: rest.take (taken - 1)⟩ :: tokens d (rest.drop (taken - 1))
termination_by cs.length
decreasing_by
  have hl := congrArg List.length _h
  simp only [List.length_drop, List.length_cons] at hl ⊢
  omega

/-- The text that tokens have been cut from. -/
def Token.textOf (ts : List Token) : List Char :=
  ts.flatMap fun t => t.gap ++ t.text

theorem Token.textOf_cons (t : Token) (ts : List Token) :
    Token.textOf (t :: ts) = t.gap ++ t.text ++ Token.textOf ts := by
  simp [Token.textOf]

/-- **Nothing is lost.** The tokens of a text spell the text. -/
theorem Token.textOf_tokens (d : Dialect) (cs : List Char) : Token.textOf (tokens d cs) = cs := by
  fun_induction tokens d cs with
  | case1 | case2 => simp [Token.textOf]
  | case3 cs n _ c rest h =>
    rw [Token.textOf_cons, ← h]
    simp [Token.textOf]
  | case4 cs n _ c rest h l taken _ _ ih =>
    rw [Token.textOf_cons, ih]
    have joined := List.take_append_drop n cs
    rw [h] at joined
    simpa using joined

end DeferredTx.Sql
