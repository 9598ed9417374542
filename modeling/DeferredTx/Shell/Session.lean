import DeferredTx.Session.Controller
import DeferredTx.Shell.Command
import DeferredTx.Shell.Script
import DeferredTx.Sql.Script

/-!
# Sessions of the shell

A session carries out the steps of a script on a controller. What fails is reported, and the session
goes on with the next step.

* `Session`: the controller, the savepoints that meta commands have made, and how texts are split.
* `Session.runCommand`, `Session.runStatement`: one meta command, one statement.
* `Session.statementsOf`, `Session.runAll`: the statements of a text, and what running them up to the
  first one that fails gives.
* `Session.perform`: one step, with what it prints.
-/

namespace DeferredTx.Shell

open DeferredTx.Session (Controller Delegate)

/-- Why a step fails. -/
inductive Fault where
  | command (e : CommandError)
  /-- No savepoint of the name has been made, or it has been released. -/
  | unknownSavepoint (name : String)
  | database (e : DbError)
  deriving DecidableEq, Repr

/-- The wording of a failure. -/
def Fault.message : Fault → String
  | command e => e.message
  | unknownSavepoint name => "Unknown savepoint '" ++ name ++ "'"
  | database e => e.message

/-- A line that the shell prints. -/
inductive Message where
  | output (text : String)
  | error (text : String)
  deriving DecidableEq, Repr

/-- How a library splits a text into statements. -/
abbrev Splitter := DatabaseKind → String → Except DbError (List String)

/-- A controller, and the savepoints that meta commands have made on it. -/
structure Session (δ : Type) where
  controller : Controller δ
  /-- The kind of database, which decides how texts are split. -/
  kind : DatabaseKind
  /-- The savepoints by the names that they have in SQL. -/
  savepoints : List (String × Savepoint) := []
  split : Splitter := Sql.Script.split

namespace Session

variable {δ α : Type}

/-- What a session does: it may fail, and gives lines to print. -/
abbrev Run (δ α : Type) := EStateM Fault (Session δ) α

/-- Runs an action on the controller. -/
def onController (act : DeferredTx.Session.Action (Controller δ) α) : Run δ α := fun s =>
  match act s.controller with
  | .ok a c => .ok a { s with controller := c }
  | .error e c => .error (.database e) { s with controller := c }

/-- The savepoint of a name. -/
def find (name : String) : Run δ Savepoint := do
  match (← get).savepoints.find? fun p => p.1 == name with
  | some (_, s) => return s
  | none => throw (.unknownSavepoint name)

/-- Forgets the savepoint of a name. -/
def forget (name : String) (s : Session δ) : Session δ :=
  { s with savepoints := s.savepoints.filter fun p => p.1 != name }

/-- Keeps a savepoint under its name in SQL, in place of an earlier one of that name. -/
def keep (sp : Savepoint) (s : Session δ) : Session δ :=
  { s with savepoints := (sp.sqlName, sp) :: (s.forget sp.sqlName).savepoints }

variable [Delegate δ]

/-- The settings in words. -/
def status : Run δ String := do
  let delegate ← onController Controller.delegateAutoCommit
  let c := (← get).controller
  return "autocommit=" ++ toString c.autoCommit ++ " smartcommit=" ++ toString c.smartCommit
    ++ " delegate_autocommit=" ++ toString delegate

/-- Carries out a meta command. -/
def runCommand : Command → Run δ (List String)
  | .commit => do onController Controller.commit; return []
  | .rollback => do onController Controller.rollback; return []
  | .autoCommit on => do onController (Controller.setAutoCommit on); return []
  | .smartCommit on => do onController (Controller.setSmartCommit on); return []
  | .savepoint name => do
    let sp ← onController (Controller.setSavepoint name)
    modify (keep sp)
    return ["savepoint " ++ sp.sqlName]
  | .release name => do
    onController (Controller.release (← find name))
    modify (forget name)
    return []
  | .rollbackTo name => do
    onController (Controller.rollbackTo (← find name))
    return []
  | .status => return [← status]

/-- Carries out the meta command on a line. -/
def runLine (line : String) : Run δ (List String) :=
  match Command.read line with
  | .ok c => runCommand c
  | .error e => throw (.command e)

/-- Carries out a statement: a query prints its rows, any other one how many rows it affected. -/
def runStatement (sql : String) : Run δ (List String) := do
  match Statement.classify sql with
  | .error e => throw (.database e)
  | .ok c =>
    if c.kind == .query then
      return (← onController (Controller.query sql)).map Row.render
    else
      return [toString (← onController (Controller.execute sql)) ++ " row(s) affected"]

/-- Carries out statements up to the first one that fails: the lines printed, the failure, and the
session afterwards. -/
def runAll : List String → Session δ → List String × Option Fault × Session δ
  | [], s => ([], none, s)
  | sql :: more, s =>
    match runStatement sql s with
    | .error e s' => ([], some e, s')
    | .ok lines s' =>
      let (rest, fault, last) := runAll more s'
      (lines ++ rest, fault, last)

/-- The statements of a text; one that cannot be split is run as it is. -/
def statementsOf (s : Session δ) (text : String) : List String :=
  match s.split s.kind text with
  | .ok statements => statements
  | .error _ => [text]

/-- The lines that a step prints, its failure, and the session afterwards. -/
def runStep (step : Step) (s : Session δ) : List String × Option Fault × Session δ :=
  match step with
  | .run text => runAll (s.statementsOf text) s
  | .command line =>
    match runLine line s with
    | .ok lines s' => (lines, none, s')
    | .error e s' => ([], some e, s')

/-- Carries out a step; a failure is reported behind what has been printed. -/
def perform (step : Step) (s : Session δ) : List Message × Session δ :=
  let (lines, fault, s') := runStep step s
  (lines.map .output ++ (fault.map fun f => Message.error ("Error: " ++ f.message)).toList, s')

/-- Carries out steps one after another, whether they fail or not. -/
def performAll : List Step → Session δ → List Message × Session δ
  | [], s => ([], s)
  | step :: more, s =>
    let (messages, s') := perform step s
    let (rest, last) := performAll more s'
    (messages ++ rest, last)

end Session
end DeferredTx.Shell
