import DeferredTx.Session.Connection
import DeferredTx.Sql.Statement.Reader
import DeferredTx.Store.Basic
import DeferredTx.Store.Result

/-!
# The store as a database

A text sent to the store is cut at its semicolons, and its statements are carried out one after
another. The first one that fails stops the text; what came before it stays.

* `Store.step`: one statement of a text.
* `Store.execute`: the rows affected, added up over the statements of a text.
* `Store.query`: the rows of all queries in a text.
-/

namespace DeferredTx.Store

open Session Sql

/-- What comes of a statement that is not carried out. -/
def refusal : StatementError :=
  .refused "the statement was refused"

/-- Carries out the statement that tokens stand for. -/
def step (chunk : List Token) : EStateM StatementError Store (Option Relation) := fun s =>
  match Sql.Statement.read .store chunk with
  | some (statement, [⟨.stop, _, _⟩]) =>
    match s.perform statement with
    | .ok (result, s') =>
      if result.all Relation.isReadable then .ok result s' else .error refusal s'
    | .error .refused => .error refusal s
    | .error .violated => .error refusal { s with changed := 0 }
  | _ => .error refusal s

/-- The statements of a text, as their tokens. -/
def statements (sql : String) : List (List Token) :=
  chunks (tokens .store sql.toList)

/-- Carries out a text; the numbers of affected rows are added up. A statement that changes no rows
counts like the last one that did. -/
def execute (sql : String) : EStateM StatementError Store Nat :=
  (statements sql).foldlM (fun total chunk => do
    discard <| step chunk
    return total + (← get).changed) 0

/-- Carries out a text; its queries give rows, which are read when all is done. -/
def query (sql : String) : EStateM StatementError Store (List Row) := do
  let results ← (statements sql).mapM step
  match (results.filterMap id).mapM Relation.toRows with
  | .ok rows => return rows.flatten
  | .error e => throw e

instance : Database Store where
  execute r := execute r.text
  query := query
  close := pure ()

end DeferredTx.Store
