import DeferredTx.Error
import DeferredTx.Session.Row

/-!
# Delegates

A delegate is a connection with an auto-commit flag of its own, the one that a controller drives.

* `Action`: a computation on a state that may fail; a failed one keeps the state it has reached.
* `Delegate`: what a controller needs from the connection it wraps.
* `Call`, `Reply`, `Delegate.perform`: the calls on a delegate as data, for runs of any length.
-/

namespace DeferredTx.Session

/-- A computation on a state that may fail; the state reached so far is kept either way. -/
abbrev Action (σ α : Type) := EStateM DbError σ α

/-- A connection with an auto-commit flag of its own. -/
class Delegate (δ : Type) where
  /-- The flag as it is now. -/
  autoCommit : Action δ Bool
  /-- Changes the flag; switching it on commits an open transaction. -/
  setAutoCommit (on : Bool) : Action δ Unit
  commit : Action δ Unit
  rollback : Action δ Unit
  /-- Makes a savepoint, with a name if the caller has chosen one. -/
  setSavepoint (name : Option String) : Action δ Savepoint
  rollbackTo (s : Savepoint) : Action δ Unit
  release (s : Savepoint) : Action δ Unit
  /-- Executes a statement and tells how many rows it affected. -/
  execute (sql : String) : Action δ Nat
  query (sql : String) : Action δ (List Row)
  close : Action δ Unit

/-- The calls that a caller makes on a connection. -/
inductive Call where
  | setAutoCommit (on : Bool)
  | commit
  | rollback
  | setSavepoint (name : Option String)
  | rollbackTo (s : Savepoint)
  | release (s : Savepoint)
  | execute (sql : String)
  | query (sql : String)
  deriving DecidableEq, Repr

/-- What a successful call returns. -/
inductive Reply where
  | done
  | savepoint (s : Savepoint)
  | count (rows : Nat)
  | rows (rs : List Row)

/-- One call on a delegate. -/
def Delegate.perform {δ : Type} [Delegate δ] : Call → Action δ Reply
  | .setAutoCommit on => do Delegate.setAutoCommit on; return .done
  | .commit => do Delegate.commit; return .done
  | .rollback => do Delegate.rollback; return .done
  | .setSavepoint name => return .savepoint (← Delegate.setSavepoint name)
  | .rollbackTo s => do Delegate.rollbackTo s; return .done
  | .release s => do Delegate.release s; return .done
  | .execute sql => return .count (← Delegate.execute sql)
  | .query sql => return .rows (← Delegate.query sql)

/-- Runs a step for every item of a list, failed ones included; the results in order, and the state
behind the last one. -/
def run {σ ι ρ : Type} (step : ι → Action σ ρ) : List ι → σ → List (Except DbError ρ) × σ
  | [], s => ([], s)
  | i :: rest, s =>
    match step i s with
    | .ok r s' => let (rs, last) := run step rest s'; (.ok r :: rs, last)
    | .error e s' => let (rs, last) := run step rest s'; (.error e :: rs, last)

end DeferredTx.Session
