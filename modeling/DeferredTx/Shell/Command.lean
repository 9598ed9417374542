import DeferredTx.Settings.Switch

/-!
# Meta commands

A meta command is a line of words behind backslashes. Its first word, in any case, names it; the
second is its argument, taken as it is; further words are ignored.

* `Command.read`: the command that a line stands for.
* `Command.render`: a line that stands for a command.
-/

namespace DeferredTx.Shell

open Text

/-- The meta commands of the shell. -/
inductive Command where
  | commit
  | rollback
  | autoCommit (on : Bool)
  | smartCommit (on : Bool)
  | savepoint (name : Option String)
  | release (name : String)
  | rollbackTo (name : String)
  | status
  deriving DecidableEq, Repr

/-- Why a line is no meta command. -/
inductive CommandError where
  | unknown (name : String)
  /-- The argument is missing. -/
  | missing (name what : String)
  | notASwitch (e : Switch.NotASwitch)
  deriving DecidableEq, Repr

/-- The wording of a refusal. -/
def CommandError.message : CommandError → String
  | .unknown name => "Unknown command \\" ++ name
  | .missing name what => "\\" ++ name ++ " requires " ++ what
  | .notASwitch e => e.message

namespace Command

/-- The first two words of a line behind its backslashes, the first one in lower case. -/
def words (line : String) : String × Option String :=
  match word? isBlank ((trim line.toList).dropWhile (· == '\\')) with
  | none => ("", none)
  | some (name, rest) =>
    (String.ofList (fold name), (word? isBlank rest).map fun w => String.ofList w.1)

/-- An argument that must be there. -/
def required (name what : String) : Option String → Except CommandError String
  | some arg => .ok arg
  | none => .error (.missing name what)

/-- An argument that must be a switch. -/
def switch (name : String) (arg : Option String) : Except CommandError Bool := do
  match Switch.read (← required name "on or off" arg) with
  | .ok on => return on
  | .error e => throw (.notASwitch e)

/-- The command that a line stands for. -/
def read (line : String) : Except CommandError Command :=
  let (name, arg) := words line
  if name = "commit" then .ok .commit
  else if name = "rollback" then .ok .rollback
  else if name = "autocommit" then (switch name arg).map .autoCommit
  else if name = "smartcommit" then (switch name arg).map .smartCommit
  else if name = "savepoint" then .ok (.savepoint arg)
  else if name = "release" then (required name "a savepoint name" arg).map .release
  else if name = "rollback_to" then (required name "a savepoint name" arg).map .rollbackTo
  else if name = "status" then .ok .status
  else .error (.unknown name)

/-- A line that stands for a command. -/
def render : Command → String
  | commit => "\\commit"
  | rollback => "\\rollback"
  | autoCommit on => "\\autocommit " ++ toString on
  | smartCommit on => "\\smartcommit " ++ toString on
  | savepoint none => "\\savepoint"
  | savepoint (some name) => "\\savepoint " ++ name
  | release name => "\\release " ++ name
  | rollbackTo name => "\\rollback_to " ++ name
  | status => "\\status"

end Command
end DeferredTx.Shell
