import DeferredTx.Store.Change

/-!
# The in-memory store

A store holds tables and at most one open transaction. Without one, each statement takes effect at
once. A transaction keeps the tables as they were when it began, and those at each of its savepoints.

* `Store`, `Store.Transaction`, `Store.Mark`: the state.
* `Store.perform`: carries out one statement. One that fails changes no table and no transaction.
-/

namespace DeferredTx

/-- A savepoint with the tables as they were when it was made. -/
structure Store.Mark where
  name : String
  tables : Store.Catalog
  deriving Repr

/-- An open transaction. -/
structure Store.Transaction where
  /-- The tables as they were before it. -/
  before : Store.Catalog
  /-- Its savepoints, the newest first. -/
  marks : List Store.Mark := []
  /-- Whether a savepoint has begun it; it ends when that one is released. -/
  bySavepoint : Bool := false
  deriving Repr

/-- Tables, an open transaction, and how many rows the last change of rows has affected. -/
structure Store where
  tables : Store.Catalog := {}
  transaction : Option Store.Transaction := none
  changed : Nat := 0
  deriving Repr

namespace Store

/-- Begins a transaction; there can be only one. -/
def begin (s : Store) : Except Fault Store :=
  match s.transaction with
  | none => .ok { s with transaction := some { before := s.tables } }
  | some _ => .error .refused

/-- Ends the transaction and keeps what it has changed. -/
def commit (s : Store) : Except Fault Store :=
  match s.transaction with
  | none => .error .refused
  | some _ => .ok { s with transaction := none }

/-- Ends the transaction and undoes what it has changed. -/
def rollback (s : Store) : Except Fault Store :=
  match s.transaction with
  | none => .error .refused
  | some t => .ok { s with tables := t.before, transaction := none }

/-- Makes a savepoint; outside a transaction it begins one. -/
def mark (s : Store) (name : String) : Store :=
  let m : Mark := ⟨name, s.tables⟩
  match s.transaction with
  | none => { s with transaction := some ⟨s.tables, [m], true⟩ }
  | some t => { s with transaction := some { t with marks := m :: t.marks } }

/-- The newest savepoint of a name and those older than it. -/
def Transaction.since (t : Transaction) (name : String) : List Mark :=
  t.marks.dropWhile fun m => !Text.sameName m.name name

/-- Undoes what has changed since a savepoint; newer savepoints are lost, it stays. -/
def rollbackTo (s : Store) (name : String) : Except Fault Store :=
  match s.transaction with
  | none => .error .refused
  | some t =>
    match t.since name with
    | [] => .error .refused
    | m :: older =>
      .ok { s with tables := m.tables, transaction := some { t with marks := m :: older } }

/-- Forgets a savepoint and newer ones. The transaction ends with the savepoint that has begun it. -/
def release (s : Store) (name : String) : Except Fault Store :=
  match s.transaction with
  | none => .error .refused
  | some t =>
    match t.since name with
    | [] => .error .refused
    | _ :: older =>
      let isEnded := t.bySavepoint && older.isEmpty
      .ok { s with transaction := if isEnded then none else some { t with marks := older } }

/-- The store after a change of rows. -/
def afterChange (s : Store) (result : Catalog × Nat) : Store :=
  { s with tables := result.1, changed := result.2 }

open Sql (Statement)

/-- Carries out a statement; a query gives rows. -/
def perform (s : Store) : Statement → Except Fault (Option Relation × Store)
  | .query q => do return (some (← orRefuse (s.tables.query? q)), s)
  | .insert replacing table columns rows => do
    return (none, s.afterChange (← s.tables.insert replacing table columns rows))
  | .update table changes condition => do
    return (none, s.afterChange (← s.tables.update table changes condition))
  | .delete table condition => do
    return (none, s.afterChange (← s.tables.delete table condition))
  | .createTable unlessExists table columns => do
    return (none, { s with tables := ← s.tables.createTable unlessExists table columns })
  | .dropTable ifExists table => do
    return (none, { s with tables := ← s.tables.dropTable ifExists table })
  | .begin _ => do return (none, ← s.begin)
  | .commit => do return (none, ← s.commit)
  | .rollback => do return (none, ← s.rollback)
  | .savepoint name => .ok (none, s.mark name.text)
  | .release name => do return (none, ← s.release name.text)
  | .rollbackTo name => do return (none, ← s.rollbackTo name.text)

end Store
end DeferredTx
