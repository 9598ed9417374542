import DeferredTx.Text.Hex
import DeferredTx.Text.Hidden

/-!
# Quoted texts

Two written forms of a text between double quotes.

* `json`: a JSON string; only the quote, the backslash and control characters are escaped.
* `literal`: a programmer's literal, as structures are described in; hidden characters without a
  letter of their own are written by their code point in braces.
-/

namespace DeferredTx.Text

namespace Quoted

/-- One character inside a JSON string. -/
def jsonChar (c : Char) : List Char :=
  if c = '"' then ['\\', '"']
  else if c = '\\' then ['\\', '\\']
  else if c = '\n' then ['\\', 'n']
  else if c = '\r' then ['\\', 'r']
  else if c = '\t' then ['\\', 't']
  else if c = '\x08' then ['\\', 'b']
  else if c = '\x0c' then ['\\', 'f']
  else if c.toNat < 0x20 then ['\\', 'u'] ++ padZeros 4 (hex c.toNat)
  else [c]

/-- The JSON string that stands for `s`. -/
def json (s : String) : String :=
  String.ofList ('"' :: s.toList.flatMap jsonChar ++ ['"'])

/-- One character inside a literal. -/
def literalChar (c : Char) : List Char :=
  if c = '"' then ['\\', '"']
  else if c = '\\' then ['\\', '\\']
  else if c = '\n' then ['\\', 'n']
  else if c = '\r' then ['\\', 'r']
  else if c = '\t' then ['\\', 't']
  else if c = '\x00' then ['\\', '0']
  else if isHidden c then ['\\', 'u', '\x7b'] ++ hex c.toNat ++ ['\x7d']
  else [c]

/-- The literal that stands for `s`. -/
def literal (s : String) : String :=
  String.ofList ('"' :: s.toList.flatMap literalChar ++ ['"'])

end Quoted
end DeferredTx.Text
