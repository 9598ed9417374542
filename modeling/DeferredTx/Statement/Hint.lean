import DeferredTx.Statement.Cleaning
import DeferredTx.Text.Ascii
import DeferredTx.Text.Split

/-!
# Statement hints

A query may stand behind a hint, an at sign and a text in braces. The hint is taken to end at the
last closing brace in front of the first place where a word that opens a query is spelled, wherever
that is. Without an opening brace in front of that closing one the text is left as it is.

* `queryWords`: the words that open a query.
* `splitAtQuery?`: a text cut in front of the first place that spells one of them.
* `stripHint`: a text without its hint.
-/

namespace DeferredTx.Statement

open Text

/-- The words that open a query. -/
def queryWords : List (List Char) :=
  [['S', 'E', 'L', 'E', 'C', 'T'], ['W', 'I', 'T', 'H']]

/-- Whether a text begins with the letters of a query word, in any case. -/
def spellsQuery (cs : List Char) : Bool :=
  queryWords.any fun w => startsWithFold w cs

/-- The text cut in front of the first place that spells a query word. -/
def splitAtQuery? : List Char → Option (List Char × List Char)
  | [] => none
  | c :: r =>
    if spellsQuery (c :: r) then some ([], c :: r)
    else (splitAtQuery? r).map fun p => (c :: p.1, p.2)

/-- What follows the hint of a text, if it has one. -/
def behindHint? (cs : List Char) : Option (List Char) :=
  match splitAtQuery? cs with
  | none => none
  | some (head, query) =>
    match splitAtLast? '\x7d' head with
    | none => none
    | some (hint, gap) => if '\x7b' ∈ hint then some (gap ++ query) else none

/-- The text without its hint and cleaned, or as it is if it has no hint. -/
def stripHint (sql : String) : Except DbError String :=
  match behindHint? sql.toList with
  | some rest => clean (String.ofList rest)
  | none => .ok sql

end DeferredTx.Statement
