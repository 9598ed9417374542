import DeferredTx.Text.Ascii
import DeferredTx.Text.Blank

/-!
# Switches

A switch is written as one of eight words, in any case and with blanks around it.

* `Switch.read`: the switch that a text stands for.
-/

namespace DeferredTx.Switch

open Text

/-- The words for a switch, with what they mean. -/
def words : List (String × Bool) :=
  [("true", true), ("1", true), ("on", true), ("yes", true),
   ("false", false), ("0", false), ("off", false), ("no", false)]

/-- A text that is no switch, in lower case and without blanks around it. -/
structure NotASwitch where
  value : String
  deriving DecidableEq, Repr

/-- The wording of the refusal. -/
def NotASwitch.message (e : NotASwitch) : String :=
  "Invalid boolean value '" ++ e.value ++ "'"

/-- The switch that a text stands for. -/
def read (text : String) : Except NotASwitch Bool :=
  let value := String.ofList (fold (trim text.toList))
  match words.find? fun w => w.1 == value with
  | some w => .ok w.2
  | none => .error ⟨value⟩

end DeferredTx.Switch
