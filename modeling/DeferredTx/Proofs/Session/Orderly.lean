import DeferredTx.Proofs.Session.Lifetime

/-!
# Orderly connections

A connection that has a transaction open has its flag off: it begins one only then, and switching the
flag on ends it first.

* `Connection.IsFresh`: a connection as it is opened.
* `Connection.Orderly`, `Connection.orderly_of_arises`: **an open transaction means that the flag is
  off**, all through the life of a connection.
-/

namespace DeferredTx.Session.Connection

variable {σ α : Type}

/-- A connection as it is opened. -/
structure IsFresh (c : Connection σ) : Prop where
  autoCommit : c.autoCommit = true
  inTransaction : c.inTransaction = false
  savepoints : c.savepoints = 0

/-- A transaction is open only while the flag is off. -/
def Orderly (c : Connection σ) : Prop :=
  c.inTransaction = true → c.autoCommit = false

theorem orderly_of_ended {c : Connection σ} (h : c.inTransaction = false) : c.Orderly := by
  intro hin
  rw [h] at hin
  cases hin

theorem kept_onDatabase (act : EStateM StatementError σ α) : Kept Orderly (onDatabase act) := by
  intro c hc
  rw [ends_onDatabase]
  cases act c.database <;> exact hc

theorem ends_refuseInAutoCommit (call : TransactionCall) (c : Connection σ)
    {Q : Unit → Connection σ → Prop} {R : DbError → Connection σ → Prop} :
    Ends (refuseInAutoCommit call) c Q R ↔
      if c.autoCommit = true then R (.inAutoCommit call) c else Q () c := by
  simp [refuseInAutoCommit]

theorem ends_refuseBadName (name : Option String) (c : Connection σ)
    {Q : Unit → Connection σ → Prop} {R : DbError → Connection σ → Prop}
    (hbad : ∀ fault, R (.savepointName fault) c)
    (hgood : (∀ n, name = some n → Savepoint.checkName n = .ok ()) → Q () c) :
    Ends (refuseBadName name) c Q R := by
  unfold refuseBadName
  cases name with
  | none => exact hgood nofun
  | some n =>
    cases hn : Savepoint.checkName n with
    | error fault => simpa [hn] using hbad fault
    | ok _ =>
      simp only [Option.map_some, hn]
      exact hgood fun m hm => by rw [← Option.some.inj hm, hn]

/-- A refusal changes nothing. -/
theorem kept_refuseInAutoCommit {P : Connection σ → Prop} (call : TransactionCall) :
    Kept P (refuseInAutoCommit call) := by
  intro c hc
  rw [ends_refuseInAutoCommit]
  split <;> exact hc

theorem kept_refuseBadName {P : Connection σ → Prop} (name : Option String) :
    Kept P (refuseBadName name) :=
  fun c hc => ends_refuseBadName name c (fun _ => hc) fun _ => hc

variable [Database σ]

theorem kept_ensureTransaction : Kept Orderly (ensureTransaction (σ := σ)) := by
  intro c hc
  simp only [ensureTransaction, ends_bind, ends_get, ends_ite, ends_discard, ends_modify, ends_pure]
  split
  · rename_i hneed
    simp only [Bool.and_eq_true, Bool.not_eq_true'] at hneed
    rw [send, ends_onDatabase]
    split
    · exact fun _ => hneed.1
    · exact hc
  · exact hc

/-- Behind a transaction that has been ended none is open; one that could not be ended is still open. -/
theorem ends_endTransaction_orderly (r : Request) {c : Connection σ} (hc : c.Orderly) :
    Ends (endTransaction r) c (fun _ c' => c'.inTransaction = false) fun _ c' => c'.Orderly := by
  simp only [endTransaction, ends_bind, ends_get, ends_ite, ends_discard, ends_modify, ends_pure]
  split
  · rw [send, ends_onDatabase]
    split
    · trivial
    · exact hc
  · simpa using ‹¬c.inTransaction = true›

theorem kept_endTransaction (r : Request) : Kept Orderly (endTransaction (σ := σ) r) := by
  intro c hc
  exact (ends_endTransaction_orderly r hc).mono (fun _ _ h => orderly_of_ended h) fun _ _ h => h

theorem kept_send (r : Request) : Kept Orderly (discard (send (σ := σ) r)) := by
  intro c hc
  rw [ends_discard]
  exact kept_onDatabase _ c hc

theorem kept_setAutoCommit (on : Bool) :
    Kept Orderly (Delegate.setAutoCommit (δ := Connection σ) on) := by
  intro c hc
  simp only [Delegate.setAutoCommit, ends_bind, ends_ite, ends_modify]
  cases on with
  | true =>
    refine (ends_endTransaction_orderly .commit hc).mono (fun _ c' h => ?_) fun _ _ h => h
    exact orderly_of_ended (c := { c' with autoCommit := true }) h
  | false => exact fun _ => rfl

theorem kept_setSavepoint (name : Option String) :
    Kept Orderly (Delegate.setSavepoint (δ := Connection σ) name) := by
  refine kept_bind (kept_refuseInAutoCommit _) fun _ => ?_
  refine kept_bind (kept_refuseBadName _) fun _ => ?_
  refine kept_bind kept_ensureTransaction fun _ => ?_
  intro c hc
  simp only [ends_bind, ends_modify, ends_get, ends_discard, ends_pure]
  exact kept_onDatabase _ { c with savepoints := c.savepoints + 1 } hc

/-- Every method of a connection keeps it orderly. -/
theorem invariant_orderly : Invariant (Orderly (σ := σ)) where
  autoCommit := Kept.simulates fun _ hc => hc
  setAutoCommit on := Kept.simulates (kept_setAutoCommit on)
  commit := Kept.simulates
    (kept_bind (kept_refuseInAutoCommit _) fun _ => kept_endTransaction _)
  rollback := Kept.simulates
    (kept_bind (kept_refuseInAutoCommit _) fun _ => kept_endTransaction _)
  setSavepoint name := Kept.simulates (kept_setSavepoint name)
  rollbackTo _ := Kept.simulates (kept_bind (kept_refuseInAutoCommit _) fun _ => kept_send _)
  release _ := Kept.simulates (kept_send _)
  execute _ := Kept.simulates (kept_bind kept_ensureTransaction fun _ => kept_onDatabase _)
  query _ := Kept.simulates (kept_bind kept_ensureTransaction fun _ => kept_onDatabase _)

/-- **An open transaction means that the flag is off**, in every state of a connection's life. -/
theorem orderly_of_arises {c : Connection σ} (h : Arises IsFresh c) : c.Orderly :=
  invariant_orderly.arises (fun _ h => orderly_of_ended h.inTransaction) h

end DeferredTx.Session.Connection
