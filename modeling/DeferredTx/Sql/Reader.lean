import DeferredTx.Sql.Name
import DeferredTx.Sql.Token

/-!
# Readers of tokens

A reader takes tokens from the front of a list and says what they stand for, or refuses them.

* `Reader.symbol`, `Reader.keyword`, `Reader.name`: readers of one token.
* `Reader.commaSeparated`: one or more things with commas between them.
-/

namespace DeferredTx.Sql

/-- Whether a token is this symbol. -/
def Token.isSymbol (t : Token) (text : String) : Bool :=
  t.lexeme == .symbol text

/-- Whether a token is this keyword, in any case. -/
def Token.isKeyword (t : Token) (word : String) : Bool :=
  match t.lexeme with
  | .word text => Text.sameName text word
  | _ => false

/-- Whether a word is on a list of words in upper case. -/
def isOneOf (word : String) (words : List String) : Bool :=
  words.any fun w => Text.sameName w word

/-- Takes tokens from the front of a list, or refuses them. -/
abbrev Reader (α : Type) := StateT (List Token) Option α

namespace Reader

variable {α : Type}

/-- Takes one token that `f` accepts. -/
def token (f : Token → Option α) : Reader α
  | [] => none
  | t :: ts => (f t).map fun a => (a, ts)

/-- Takes this symbol. -/
def symbol (text : String) : Reader Unit :=
  token fun t => if t.isSymbol text then some () else none

/-- Takes this keyword. -/
def keyword (word : String) : Reader Unit :=
  token fun t => if t.isKeyword word then some () else none

/-- Takes these keywords. -/
def keywords (words : List String) : Reader Unit :=
  words.forM keyword

/-- Takes one of these words; it is given in upper case. -/
def oneOf (words : List String) : Reader String :=
  token fun t => words.find? t.isKeyword

/-- Takes a name: a word that is not reserved, a name in quotes, or a string. -/
def name (d : Dialect) : Reader Name :=
  token fun t =>
    match t.lexeme with
    | .word text => if isOneOf text d.reserved then none else some ⟨none, text⟩
    | .name quote text | .string quote text => some ⟨some quote, text⟩
    | _ => none

/-- Whether what `r` reads is there; it is taken if so. -/
def present (r : Reader Unit) : Reader Bool :=
  Option.isSome <$> optional r

/-- Takes what `r` reads behind a keyword, if the keyword is there. -/
def clause (words : List String) (r : Reader α) : Reader (Option α) := do
  if ← present (keywords words) then some <$> r else return none

/-- Takes what `r` reads between parentheses. -/
def parenthesized (r : Reader α) : Reader α := do
  symbol "("
  let a ← r
  symbol ")"
  return a

/-- Takes one or more of what `r` reads, with commas between them. -/
def commaSeparated (r : Reader α) (ts : List Token) : Option (List α × List Token) :=
  match r ts with
  | none => none
  | some (a, []) => some ([a], [])
  | some (a, t :: rest) =>
    if t.isSymbol "," && rest.length < ts.length then
      (commaSeparated r rest).map fun p => (a :: p.1, p.2)
    else if t.isSymbol "," then none
    else some ([a], t :: rest)
termination_by ts.length
decreasing_by simp_all

end Reader
end DeferredTx.Sql
