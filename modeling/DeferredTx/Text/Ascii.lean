/-!
# Letter case

Case is folded for ASCII letters only; every other character stands for itself.

* `fold`: the text in lower case.
* `sameFold`, `sameName`: equality of two texts, of two strings, up to case.
* `startsWithFold`: whether a text begins with a given one up to case.
-/

namespace DeferredTx.Text

/-- The text with its ASCII letters in lower case. -/
def fold (cs : List Char) : List Char :=
  cs.map Char.toLower

/-- Whether two texts are equal up to the case of ASCII letters. -/
def sameFold (a b : List Char) : Bool :=
  fold a == fold b

/-- Whether `cs` begins with `start` up to the case of ASCII letters. -/
def startsWithFold (start cs : List Char) : Bool :=
  sameFold (cs.take start.length) start

/-- Whether two strings are equal up to the case of ASCII letters. -/
def sameName (a b : String) : Bool :=
  sameFold a.toList b.toList

end DeferredTx.Text
