import DeferredTx.Session.Delegate

/-!
# A recording delegate

A recorder is a delegate without a database behind it. It writes down the calls that reach it and
fails where it is told to.

* `Recorder.Method`: the methods that can be made to fail.
* `Recorder.Event`: a call written down; a call that fails is not.
* `Recorder.fail`, `Recorder.heal`: set and lift the failure of a method.
-/

namespace DeferredTx.Session

namespace Recorder

/-- The methods of a delegate, as names for their failures. -/
inductive Method where
  | autoCommit
  | setAutoCommit
  | commit
  | rollback
  | setSavepoint
  | rollbackTo
  | release
  | execute
  | query
  | close
  deriving DecidableEq, Repr

/-- A call that a recorder has carried out. -/
inductive Event where
  | setAutoCommit (on : Bool)
  | commit
  | rollback
  | savepoint (s : Savepoint)
  | rollbackTo (s : Savepoint)
  | release (s : Savepoint)
  | execute (sql : String)
  | query (sql : String)
  deriving DecidableEq, Repr

/-- How an event is written. -/
def Event.render : Event → String
  | .setAutoCommit on => "set_auto_commit(" ++ toString on ++ ")"
  | .commit => "commit"
  | .rollback => "rollback"
  | .savepoint s => "savepoint(" ++ s.sqlName ++ ")"
  | .rollbackTo s => "rollback_to(" ++ s.sqlName ++ ")"
  | .release s => "release(" ++ s.sqlName ++ ")"
  | .execute sql => "execute(" ++ sql ++ ")"
  | .query sql => "query(" ++ sql ++ ")"

end Recorder

/-- The state of a recording delegate. -/
structure Recorder where
  autoCommit : Bool
  /-- The methods that fail, with their errors. -/
  failures : List (Recorder.Method × DbError) := []
  /-- The number of the last savepoint. -/
  savepoints : UInt32 := 0
  /-- How many statements have been executed. -/
  executed : Nat := 0
  /-- The calls carried out, the latest first. -/
  events : List Recorder.Event := []
  deriving DecidableEq, Repr

namespace Recorder

/-- Lifts the failure of a method. -/
def heal (m : Method) (r : Recorder) : Recorder :=
  { r with failures := r.failures.filter fun f => f.1 != m }

/-- Makes a method fail from now on. -/
def fail (m : Method) (e : DbError) (r : Recorder) : Recorder :=
  { r with failures := (m, e) :: (heal m r).failures }

/-- The error that a method fails with now, if it does. -/
def failure? (r : Recorder) (m : Method) : Option DbError :=
  (r.failures.find? fun f => f.1 == m).map (·.2)

/-- Carries out `act` unless `m` is to fail. -/
def unlessFailing {α : Type} (m : Method) (act : Action Recorder α) : Action Recorder α := do
  match (← get).failure? m with
  | some e => throw e
  | none => act

/-- Writes an event down. -/
def record (e : Event) : Action Recorder Unit :=
  modify fun r => { r with events := e :: r.events }

instance : Delegate Recorder where
  autoCommit := unlessFailing .autoCommit do return (← get).autoCommit
  setAutoCommit on := unlessFailing .setAutoCommit do
    record (.setAutoCommit on)
    modify fun r => { r with autoCommit := on }
  commit := unlessFailing .commit (record .commit)
  rollback := unlessFailing .rollback (record .rollback)
  setSavepoint name := unlessFailing .setSavepoint do
    modify fun r => { r with savepoints := r.savepoints + 1 }
    let s : Savepoint := ⟨(← get).savepoints, name⟩
    record (.savepoint s)
    return s
  rollbackTo s := unlessFailing .rollbackTo (record (.rollbackTo s))
  release s := unlessFailing .release (record (.release s))
  execute sql := unlessFailing .execute do
    record (.execute sql)
    modify fun r => { r with executed := r.executed + 1 }
    return (← get).executed
  query sql := unlessFailing .query do
    record (.query sql)
    return [Row.ofColumns [("sql", .text sql)]]
  close := unlessFailing .close (pure ())

end Recorder
end DeferredTx.Session
