import DeferredTx.Error
import DeferredTx.Statement.Scan
import DeferredTx.Text.Blank

/-!
# Cleaned statements

A cleaned statement has no comments, no blanks at either end and no terminator.

* `clean`: the cleaned form of a text. Only one semicolon is dropped at the end, so a text that ends
  in several keeps all but the last.
* `firstToken?`: the first word of a cleaned statement.
-/

namespace DeferredTx.Statement

open Text

/-- The text without the semicolon that it ends in, if it does. -/
def dropTerminator (cs : List Char) : List Char :=
  if cs.getLast? = some ';' then cs.dropLast else cs

/-- Trims a text and drops one semicolon at its end. -/
def finish (kept : List Char) : List Char :=
  trim (dropTerminator (trimEnd kept))

/-- The cleaned form of a text; `none` if one of its literals is not closed. -/
def clean? (cs : List Char) : Option (List Char) :=
  (uncommented cs).map finish

/-- The cleaned form of a text. -/
def clean (sql : String) : Except DbError String :=
  match clean? sql.toList with
  | some cs => .ok (String.ofList cs)
  | none => .error (.unclosedLiteral sql)

/-- The first run of characters that are no ASCII blanks. -/
def firstToken? (sql : String) : Option String :=
  (word? isAsciiBlank sql.toList).map fun w => String.ofList w.1

end DeferredTx.Statement
