import DeferredTx.Proofs.Session.Transparent

/-!
# Refused names

A connection checks the name of a savepoint before it begins a transaction, so that a name that is
refused costs nothing. A controller has taken its connection out of auto-commit by then, as it does
for every savepoint; everything else is as it was.

* `Connection.setSavepoint_of_refused`: a refusal changes nothing about a connection.
* `Controller.setSavepoint_of_refused`: under a controller the flag of the connection is off behind it.
* `refused_name_keeps_state`: **what a refused name leaves as it was**, in every reachable state.
-/

namespace DeferredTx.Session

variable {σ : Type} [Database σ] {name : String} {fault : Savepoint.NameFault}

/-- The refusal comes before anything is sent. -/
theorem Connection.setSavepoint_of_refused {c : Connection σ} (hoff : c.autoCommit = false)
    (hname : Savepoint.checkName name = .error fault) :
    Delegate.setSavepoint (some name) c = .error (.savepointName fault) c := by
  have hbad : Connection.refuseBadName (some name) c = .error (.savepointName fault) c := by
    simp only [Connection.refuseBadName, Option.map_some, hname]
    rfl
  simp only [Delegate.setSavepoint]
  rw [Connection.refuse_bind, if_neg (by simp [hoff])]
  exact bind_of_error hbad

/-- A controller meets the refusal with its connection out of auto-commit. -/
theorem Controller.setSavepoint_of_refused {c : Controller (Connection σ)} (hoff : c.autoCommit = false)
    (hname : Savepoint.checkName name = .error fault) :
    Controller.setSavepoint (some name) c =
      .error (.savepointName fault)
        { c with delegate := { c.delegate with autoCommit := false } } := by
  rw [Controller.setSavepoint_of_off hoff, Controller.onDelegate,
    Connection.setSavepoint_of_refused rfl hname]

/-- **A refused name leaves everything as it was but the flag of the connection.** In every reachable
state with the caller's mode off, the answer to a bad name is the fault of the name; both settings, the
open transaction, the number of the last savepoint and the database are as they were, and the flag of
the connection is off. It has been off before, unless smart commit had the connection in auto-commit
until then: without that the refusal changes nothing at all. -/
theorem refused_name_keeps_state {d : Connection σ} {c : Controller (Connection σ)}
    (hc : Reachable d c) (hoff : c.autoCommit = false)
    (hname : Savepoint.checkName name = .error fault) :
    Controller.perform (.call (.setSavepoint (some name))) c =
        .error (.savepointName fault)
          { c with delegate := { c.delegate with autoCommit := false } } ∧
      (c.smartCommit = false ∨ c.delegate.autoCommit = false →
        Controller.perform (.call (.setSavepoint (some name))) c =
          .error (.savepointName fault) c) := by
  have hperform : Controller.perform (.call (.setSavepoint (some name))) c =
      .error (.savepointName fault)
        { c with delegate := { c.delegate with autoCommit := false } } :=
    bind_of_error (Controller.setSavepoint_of_refused hoff hname)
  refine ⟨hperform, fun hcase => ?_⟩
  -- without smart commit the flag is the caller's mode
  have hflag : c.delegate.autoCommit = false := by
    rcases hcase with hsmart | hflag
    · exact (hc.sound.delegate_eq_caller hsmart).trans hoff
    · exact hflag
  rw [hperform]
  obtain ⟨⟨database, kind, on, inTransaction, savepoints⟩, caller, smart⟩ := c
  obtain rfl : on = false := hflag
  rfl

/-- A name that is refused in the middle of a transaction over a store. -/
theorem name_refused_in_transaction :
    let d : Connection Store := { database := {}, kind := .sqlite }
    let ops : List Op := [.call (.setAutoCommit false), .call (.execute "CREATE TABLE t (a INTEGER)")]
    let c := (run Controller.perform ops ⟨d, true, true⟩).2
    let fault : Savepoint.NameFault := .badCharacter "x; DROP TABLE t"
    Reachable d c ∧ c.autoCommit = false ∧ c.delegate.inTransaction = true ∧
      Savepoint.checkName "x; DROP TABLE t" = .error fault ∧
      Controller.perform (.call (.setSavepoint (some "x; DROP TABLE t"))) c =
        .error (.savepointName fault) c := by
  intro d ops c fault
  have hc : Reachable d c := .run _ (.wrap rfl)
  have hoff : c.autoCommit = false := by decide +kernel
  have hname : Savepoint.checkName "x; DROP TABLE t" = .error fault := by rfl
  have hflag : c.delegate.autoCommit = false := by decide +kernel
  exact ⟨hc, hoff, by decide +kernel, hname, (refused_name_keeps_state hc hoff hname).2 (.inr hflag)⟩

/-- A name that is refused while the transaction is deferred: the flag of the connection does not come
back on. -/
theorem refused_name_switches_flag :
    let d : Connection Store := { database := {}, kind := .sqlite }
    let c := (run Controller.perform [.call (.setAutoCommit false)] ⟨d, true, true⟩).2
    let r := Controller.perform (.call (.setSavepoint (some "x; DROP TABLE t"))) c
    Reachable d c ∧ c.autoCommit = false ∧
      Savepoint.checkName "x; DROP TABLE t" = .error (.badCharacter "x; DROP TABLE t") ∧
      answerOf r = .error (.savepointName (.badCharacter "x; DROP TABLE t")) ∧
      c.delegate.autoCommit = true ∧ (stateOf r).delegate.autoCommit = false := by
  intro d c r
  have hc : Reachable d c := .run _ (.wrap rfl)
  exact ⟨hc, by decide +kernel, by rfl, by rfl, by decide +kernel, by decide +kernel⟩

end DeferredTx.Session
