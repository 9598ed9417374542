/-!
# Names in SQL text

* `Name`: a name as it is written, in quotes or without.
* `protect`, `quoted`: the inside of a quoted text, and a text in quotes.
-/

namespace DeferredTx.Sql

/-- What stands in front of a character inside a quoted text. -/
inductive Before where
  | other
  | backslash
  /-- The first of two quotes. -/
  | quote
  deriving DecidableEq, Repr

/-- The inside of a quoted text. A quote in it is written twice, unless a backslash stands in front
of it, or it is followed by another one: those are taken to be written so already. -/
def protect (quote : Char) : Before → List Char → List Char
  | _, [] => []
  | before, c :: r =>
    if c ≠ quote then c :: protect quote (if c = '\\' then .backslash else .other) r
    else
      match before with
      | .backslash => c :: protect quote .backslash r
      | .quote => c :: protect quote .other r
      | .other =>
        if r.head? = some quote then c :: protect quote .quote r
        else c :: c :: protect quote .other r

/-- The quote that closes what a quote opens. -/
def closing (quote : Char) : Char :=
  if quote = '[' then ']' else quote

/-- A text in quotes. What stands in brackets is left as it is. -/
def quoted (quote : Char) (text : String) : String :=
  let inside := if quote = '[' then text.toList else protect quote .other text.toList
  String.ofList (quote :: inside ++ [closing quote])

/-- A name as it is written: behind its opening quote, or without quotes. -/
structure Name where
  quote : Option Char := none
  text : String
  deriving DecidableEq, Repr

/-- The name in SQL text. -/
def Name.render (n : Name) : String :=
  match n.quote with
  | none => n.text
  | some q => quoted q n.text

end DeferredTx.Sql
