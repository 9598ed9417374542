import DeferredTx.DatabaseKind
import DeferredTx.Session.Delegate

/-!
# Connections with a lazy transaction

A plain database connection has no auto-commit flag. A `Connection` keeps one: while it is off,
`BEGIN` is sent in front of the first statement, and the transaction stays open until a commit, a
rollback, or until the flag is switched on again.

* `Request`: what a connection asks of its database, with the SQL text that is sent.
* `Database`: what a connection needs from the database behind it.
* `Connection`: the flag, the open transaction and the number of the last savepoint.
* `Connection.ensureTransaction`, `Connection.endTransaction`: begin and end lazily.
-/

namespace DeferredTx.Session

/-- What a connection asks of its database. -/
inductive Request where
  | begin
  | commit
  | rollback
  | savepoint (name : String)
  | rollbackTo (name : String)
  | release (name : String)
  /-- A statement of the caller's. -/
  | statement (sql : String)
  deriving DecidableEq, Repr

/-- The SQL text of a request. -/
def Request.text : Request → String
  | .begin => "BEGIN"
  | .commit => "COMMIT"
  | .rollback => "ROLLBACK"
  | .savepoint name => "SAVEPOINT " ++ name
  | .rollbackTo name => "ROLLBACK TO SAVEPOINT " ++ name
  | .release name => "RELEASE SAVEPOINT " ++ name
  | .statement sql => sql

/-- A database, by what it does with the text of a request. -/
class Database (σ : Type) where
  /-- Executes a text and tells how many rows it affected. -/
  execute (r : Request) : EStateM StatementError σ Nat
  query (sql : String) : EStateM StatementError σ (List Row)
  close : EStateM StatementError σ Unit

/-- A connection with an auto-commit flag over a database. -/
structure Connection (σ : Type) where
  database : σ
  kind : DatabaseKind
  autoCommit : Bool := true
  /-- Whether a `BEGIN` of the connection's own has been sent and not ended yet. -/
  inTransaction : Bool := false
  /-- The number of the last savepoint. -/
  savepoints : UInt32 := 0

namespace Connection

variable {σ α : Type}

/-- Runs an action on the database. -/
def onDatabase (act : EStateM StatementError σ α) : Action (Connection σ) α := fun c =>
  match act c.database with
  | .ok a s => .ok a { c with database := s }
  | .error e s => .error (.statement e) { c with database := s }

variable [Database σ]

/-- Sends a request. -/
def send (r : Request) : Action (Connection σ) Nat :=
  onDatabase (Database.execute r)

/-- Begins a transaction if auto-commit is off and none is open. -/
def ensureTransaction : Action (Connection σ) Unit := do
  let c ← get
  if !c.autoCommit && !c.inTransaction then
    discard <| send .begin
    modify fun c => { c with inTransaction := true }

/-- Ends the open transaction by a request; without one nothing is sent. -/
def endTransaction (r : Request) : Action (Connection σ) Unit := do
  if (← get).inTransaction then
    discard <| send r
    modify fun c => { c with inTransaction := false }

/-- Refuses a call while the flag is on. -/
def refuseInAutoCommit (call : TransactionCall) : Action (Connection σ) Unit := do
  if (← get).autoCommit then throw (.inAutoCommit call)

/-- Refuses a name for a savepoint that may not be put into SQL text. -/
def refuseBadName (name : Option String) : Action (Connection σ) Unit :=
  match name.map Savepoint.checkName with
  | some (.error fault) => throw (.savepointName fault)
  | _ => pure ()

instance : Delegate (Connection σ) where
  autoCommit := return (← get).autoCommit
  setAutoCommit on := do
    if on then endTransaction .commit
    modify fun c => { c with autoCommit := on }
  commit := do
    refuseInAutoCommit .commit
    endTransaction .commit
  rollback := do
    refuseInAutoCommit .rollback
    endTransaction .rollback
  setSavepoint name := do
    refuseInAutoCommit .setSavepoint
    refuseBadName name
    ensureTransaction
    modify fun c => { c with savepoints := c.savepoints + 1 }
    let s : Savepoint := ⟨(← get).savepoints, name⟩
    discard <| send (.savepoint s.sqlName)
    return s
  rollbackTo s := do
    refuseInAutoCommit .rollbackToSavepoint
    discard <| send (.rollbackTo s.sqlName)
  release s := discard <| send (.release s.sqlName)
  execute sql := do
    ensureTransaction
    send (.statement sql)
  query sql := do
    ensureTransaction
    onDatabase (Database.query sql)
  close := onDatabase Database.close

/-- The connection's state in words. -/
def describe (c : Connection σ) : String :=
  "SqlxConnection \x7b db_type: " ++ c.kind.tag ++ ", auto_commit: " ++ toString c.autoCommit
    ++ ", in_transaction: " ++ toString c.inTransaction ++ " \x7d"

end Connection
end DeferredTx.Session
