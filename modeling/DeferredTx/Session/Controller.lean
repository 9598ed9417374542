import DeferredTx.Session.Delegate
import DeferredTx.Statement.Kind

/-!
# The transaction controller

A controller wraps a delegate and keeps two settings of its own: the auto-commit mode that the caller
asked for, and whether smart commit is on. With smart commit on and auto-commit off, the delegate
stays in auto-commit until a statement is to be executed that changes data or schema; only then is
its flag switched off, so that the change becomes part of a transaction. A successful commit or
rollback switches it on again. With smart commit off, the caller's mode is the delegate's flag, and
commit and rollback pass straight through.

* `Controller.wrap`: a controller over a delegate; it adopts the delegate's flag.
* `Controller.setAutoCommit`, `Controller.setSmartCommit`: the two settings.
* `Controller.beforeExecute`: takes the delegate out of auto-commit where a statement needs it.
* `Op`, `Controller.perform`: every operation as data, for runs of any length.
-/

namespace DeferredTx.Session

/-- A delegate with the settings of the controller above it. -/
structure Controller (δ : Type) where
  delegate : δ
  /-- The auto-commit mode that the caller asked for. -/
  autoCommit : Bool
  /-- Whether transactions begin with the first write only. -/
  smartCommit : Bool

namespace Controller

variable {δ α : Type}

/-- Runs an action on the wrapped delegate. -/
def onDelegate (act : Action δ α) : Action (Controller δ) α := fun c =>
  match act c.delegate with
  | .ok a d => .ok a { c with delegate := d }
  | .error e d => .error e { c with delegate := d }

variable [Delegate δ]

/-- Wraps a delegate. The caller's mode starts as the delegate's flag, and smart commit is on. -/
def wrap (d : δ) : Except DbError (Controller δ) :=
  match Delegate.autoCommit d with
  | .ok on d' => .ok ⟨d', on, true⟩
  | .error e _ => .error e

/-- The delegate's flag as it is now. -/
def delegateAutoCommit : Action (Controller δ) Bool :=
  onDelegate Delegate.autoCommit

/-- Changes the delegate's flag. -/
def setDelegateAutoCommit (on : Bool) : Action (Controller δ) Unit :=
  onDelegate (Delegate.setAutoCommit on)

/-- Refuses a call while the caller's mode is auto-commit. -/
def refuseInAutoCommit (call : TransactionCall) : Action (Controller δ) Unit := do
  if (← get).autoCommit then throw (.inAutoCommit call)

/-- Changes the caller's mode. Switched off under smart commit, it leaves the delegate in auto-commit
until the first write. -/
def setAutoCommit (on : Bool) : Action (Controller δ) Unit := do
  let c ← get
  if c.autoCommit != on then
    setDelegateAutoCommit (on || c.smartCommit)
    modify fun c => { c with autoCommit := on }

/-- Switches smart commit. Switched off while a transaction is deferred, it begins one at once. -/
def setSmartCommit (on : Bool) : Action (Controller δ) Unit := do
  let c ← get
  if c.smartCommit != on then
    if on then
      setDelegateAutoCommit true
    else if !c.autoCommit then
      if ← delegateAutoCommit then setDelegateAutoCommit false
    modify fun c => { c with smartCommit := on }

/-- Prepares the delegate for a statement. While the caller's mode is off and the delegate is in
auto-commit, it is taken out of it if `always` is set or the statement writes. The caller's mode is
never changed. -/
def beforeExecute (sql : String) (always : Bool) : Action (Controller δ) Unit := do
  if !(← get).autoCommit then
    if ← delegateAutoCommit then
      if always || Statement.isWrite sql then setDelegateAutoCommit false

/-- Ends the caller's transaction by `act`. Under smart commit, nothing is sent to a delegate that
is in auto-commit, and the delegate is in auto-commit afterwards. -/
def endTransaction (call : TransactionCall) (act : Action δ Unit) : Action (Controller δ) Unit := do
  refuseInAutoCommit call
  if (← get).smartCommit then
    if !(← delegateAutoCommit) then onDelegate act
    setDelegateAutoCommit true
  else
    onDelegate act

/-- Commits the caller's transaction. -/
def commit : Action (Controller δ) Unit :=
  endTransaction .commit Delegate.commit

/-- Rolls the caller's transaction back. -/
def rollback : Action (Controller δ) Unit :=
  endTransaction .rollback Delegate.rollback

/-- Makes a savepoint, which always needs a transaction on the delegate. -/
def setSavepoint (name : Option String) : Action (Controller δ) Savepoint := do
  refuseInAutoCommit .setSavepoint
  if ← delegateAutoCommit then setDelegateAutoCommit false
  onDelegate (Delegate.setSavepoint name)

/-- Rolls back to a savepoint; without a transaction on the delegate nothing happens. -/
def rollbackTo (s : Savepoint) : Action (Controller δ) Unit := do
  refuseInAutoCommit .rollbackToSavepoint
  if !(← delegateAutoCommit) then onDelegate (Delegate.rollbackTo s)

/-- Releases a savepoint; without a transaction on the delegate nothing happens. -/
def release (s : Savepoint) : Action (Controller δ) Unit := do
  if !(← delegateAutoCommit) then onDelegate (Delegate.release s)

/-- Executes a statement, in a transaction if it writes. -/
def execute (sql : String) : Action (Controller δ) Nat := do
  beforeExecute sql false
  onDelegate (Delegate.execute sql)

/-- Runs a query, in a transaction if it writes. -/
def query (sql : String) : Action (Controller δ) (List Row) := do
  beforeExecute sql false
  onDelegate (Delegate.query sql)

/-- Closes the delegate. -/
def close : Action (Controller δ) Unit :=
  onDelegate Delegate.close

end Controller

/-- A statement prepared on a controller. -/
structure Prepared where
  sql : String
  deriving DecidableEq, Repr

namespace Prepared

variable {δ : Type} [Delegate δ]

/-- Executes a prepared statement. It may be a call with effects of any kind, so with auto-commit off
it always runs in a transaction. -/
def execute (p : Prepared) : Action (Controller δ) Nat := do
  Controller.beforeExecute p.sql true
  Controller.onDelegate (Delegate.execute p.sql)

/-- Runs a prepared query, in a transaction if it writes. -/
def query (p : Prepared) : Action (Controller δ) (List Row) := do
  Controller.beforeExecute p.sql false
  Controller.onDelegate (Delegate.query p.sql)

end Prepared

/-- The operations of a controller. -/
inductive Op where
  | call (c : Call)
  | setSmartCommit (on : Bool)
  | beforeExecute (sql : String) (always : Bool)
  | preparedExecute (sql : String)
  | preparedQuery (sql : String)
  deriving DecidableEq, Repr

/-- One operation of a controller. -/
def Controller.perform {δ : Type} [Delegate δ] : Op → Action (Controller δ) Reply
  | .call (.setAutoCommit on) => do setAutoCommit on; return .done
  | .call .commit => do commit; return .done
  | .call .rollback => do rollback; return .done
  | .call (.setSavepoint name) => return .savepoint (← setSavepoint name)
  | .call (.rollbackTo s) => do rollbackTo s; return .done
  | .call (.release s) => do release s; return .done
  | .call (.execute sql) => return .count (← execute sql)
  | .call (.query sql) => return .rows (← query sql)
  | .setSmartCommit on => do setSmartCommit on; return .done
  | .beforeExecute sql always => do beforeExecute sql always; return .done
  | .preparedExecute sql => return .count (← Prepared.execute ⟨sql⟩)
  | .preparedQuery sql => return .rows (← Prepared.query ⟨sql⟩)

end DeferredTx.Session
