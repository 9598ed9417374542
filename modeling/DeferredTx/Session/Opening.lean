import DeferredTx.Session.Controller
import DeferredTx.Settings.Basic
import DeferredTx.Store.Database
import DeferredTx.Store.Location

/-!
# Opening connections

A library makes the connections to databases. Here it is any function from addresses to what it
answers, and everything else is built on it.

* `Connector`: how a library connects to an address.
* `Connector.connect`: a connection to the database of an address.
* `Connector.connectController`: a connection under a controller, for addresses that ask for one.
* `Connector.openWith`: a connection under a controller with settings applied.
* `connect`, `connectController`, `openWith`: the same over the store, where only databases in memory
  can be connected to.
-/

namespace DeferredTx.Session

/-- Why a library gives no connection, with the reason in its own words. -/
inductive ConnectFault where
  /-- What connections run on could not be set up. -/
  | noRuntime (reason : String)
  /-- No connection could be made. -/
  | unreachable (reason : String)
  /-- A connection was made, but a first query failed. -/
  | unanswered (reason : String)
  deriving DecidableEq, Repr

/-- The error that callers see. -/
def ConnectFault.error : ConnectFault → DbError
  | noRuntime reason => .reported .io reason
  | unreachable reason => .notConnected reason
  | unanswered reason => .reported .database reason

/-- How a library connects to an address: the database behind it, or why there is none. -/
def Connector (σ : Type) := String → Except ConnectFault σ

/-- Applies settings to a fresh controller: smart commit first, then the mode if one is set. -/
def applySettings {δ : Type} [Delegate δ] (s : Settings) : Action (Controller δ) Unit := do
  Controller.setSmartCommit s.smartCommit
  if let some on := s.autoCommit then Controller.setAutoCommit on

namespace Connector

variable {σ : Type} (connector : Connector σ)

/-- A connection to the database that an address names. It starts in auto-commit. -/
def connect (address : String) : Except DbError (Connection σ) :=
  match DatabaseKind.ofUrl? address with
  | none => .error (.unknownDatabase address)
  | some kind =>
    match connector address with
    | .ok database => .ok { database, kind }
    | .error fault => .error fault.error

variable [Database σ]

/-- A connection under a controller; `none` for an address that does not ask for one. -/
def connectController (dsn : String) : Except DbError (Option (Controller (Connection σ))) :=
  match Dsn.delegate? dsn with
  | none => .ok none
  | some address => do return some (← Controller.wrap (← connector.connect address))

/-- A connection under a controller, with settings. Their address may ask for a controller or not. -/
def openWith (s : Settings) : Except DbError (Controller (Connection σ)) := do
  let c ← Controller.wrap (← connector.connect (Dsn.address s.dsn))
  match applySettings s c with
  | .ok _ c' => return c'
  | .error e _ => throw e

end Connector

/-- The store in place of a library: it connects to databases of SQLite in memory, which are empty. -/
def inMemory : Connector Store := fun address =>
  if DatabaseKind.ofUrl? address = some .sqlite ∧ Store.isInMemory address then .ok {}
  else .error (.unreachable "the address names no database in memory")

/-- A connection to the store. -/
def connect (address : String) : Except DbError (Connection Store) :=
  inMemory.connect address

/-- A connection to the store under a controller. -/
def connectController (dsn : String) : Except DbError (Option (Controller (Connection Store))) :=
  inMemory.connectController dsn

/-- A connection to the store under a controller, with settings. -/
def openWith (s : Settings) : Except DbError (Controller (Connection Store)) :=
  inMemory.openWith s

/-- The version of connections under a controller: its major and its minor number. -/
def version : Nat × Nat := (1, 0)

end DeferredTx.Session
