import DeferredTx.Proofs.Session.Outcome
import DeferredTx.Session.Recorder

/-!
# Delegates with a lawful flag

The flag of a delegate is lawful if only a successful call that sets it can change it. A failed call
leaves it as it was, and so does every other call.

* `LawfulDelegate`: the law, with the flag as a view of the delegate's state.
* The recorder and every connection obey it.
-/

namespace DeferredTx.Session

/-- A delegate whose flag is changed by nothing but its own successful `setAutoCommit`. -/
class LawfulDelegate (δ : Type) [Delegate δ] where
  /-- The flag in a state of the delegate. -/
  flag : δ → Bool
  /-- Asking for the flag tells it, if the answer arrives, and changes nothing about it. -/
  autoCommit (d : δ) : Ends Delegate.autoCommit d (fun on d' => on = flag d ∧ flag d' = flag d)
    fun _ d' => flag d' = flag d
  setAutoCommit (on : Bool) (d : δ) : Ends (Delegate.setAutoCommit on) d (fun _ d' => flag d' = on)
    fun _ d' => flag d' = flag d
  commit : Keeps flag Delegate.commit
  rollback : Keeps flag Delegate.rollback
  setSavepoint (name : Option String) : Keeps flag (Delegate.setSavepoint name)
  rollbackTo (s : Savepoint) : Keeps flag (Delegate.rollbackTo s)
  release (s : Savepoint) : Keeps flag (Delegate.release s)
  execute (sql : String) : Keeps flag (Delegate.execute sql)
  query (sql : String) : Keeps flag (Delegate.query sql)

namespace Recorder

section Failing

variable {α : Type} {Q : α → Recorder → Prop} {R : DbError → Recorder → Prop}

theorem ends_unlessFailing_iff (m : Method) (act : Action Recorder α) (r : Recorder) :
    Ends (unlessFailing m act) r Q R ↔
      match r.failure? m with
      | some e => R e r
      | none => Ends act r Q R := by
  simp only [unlessFailing, ends_bind, ends_get]
  cases r.failure? m <;> rfl

theorem ends_unlessFailing (m : Method) (act : Action Recorder α) (r : Recorder)
    (h : Ends act r Q R) (hfail : ∀ e, R e r) : Ends (unlessFailing m act) r Q R := by
  rw [ends_unlessFailing_iff]
  cases r.failure? m with
  | some e => exact hfail e
  | none => exact h

/-- What is written down has no part in the failures. -/
theorem failure?_record (r : Recorder) (es : List Event) (m : Method) :
    { r with events := es }.failure? m = r.failure? m := rfl

end Failing

theorem keeps_record (m : Method) (e : Event) :
    Keeps Recorder.autoCommit (unlessFailing m (record e)) :=
  fun r => ends_unlessFailing m _ r (by simp [record]) fun _ => rfl

instance : LawfulDelegate Recorder where
  flag := Recorder.autoCommit
  autoCommit r := ends_unlessFailing _ _ r (by simp) fun _ => rfl
  setAutoCommit on r := ends_unlessFailing _ _ r (by simp [record]) fun _ => rfl
  commit := keeps_record _ _
  rollback := keeps_record _ _
  setSavepoint name r := ends_unlessFailing _ _ r (by simp [record]) fun _ => rfl
  rollbackTo s := keeps_record _ _
  release s := keeps_record _ _
  execute sql r := ends_unlessFailing _ _ r (by simp [record]) fun _ => rfl
  query sql r := ends_unlessFailing _ _ r (by simp [record]) fun _ => rfl

end Recorder

namespace Connection

variable {σ α : Type}

@[simp]
theorem ends_onDatabase (act : EStateM StatementError σ α) (c : Connection σ)
    {Q : α → Connection σ → Prop} {R : DbError → Connection σ → Prop} :
    Ends (onDatabase act) c Q R ↔
      match act c.database with
      | .ok a s => Q a { c with database := s }
      | .error e s => R (.statement e) { c with database := s } := by
  simp only [Ends, onDatabase]
  cases act c.database <;> rfl

theorem keeps_onDatabase (act : EStateM StatementError σ α) :
    Keeps Connection.autoCommit (onDatabase act) := by
  intro c
  rw [ends_onDatabase]
  cases act c.database <;> rfl

theorem keeps_send [Database σ] (r : Request) : Keeps Connection.autoCommit (send (σ := σ) r) :=
  keeps_onDatabase _

theorem keeps_ensureTransaction [Database σ] :
    Keeps Connection.autoCommit (ensureTransaction (σ := σ)) := by
  intro c
  simp only [ensureTransaction, ends_bind, ends_get, ends_ite]
  split
  · simpa using keeps_send .begin c
  · simp

theorem keeps_endTransaction [Database σ] (r : Request) :
    Keeps Connection.autoCommit (endTransaction (σ := σ) r) := by
  intro c
  simp only [endTransaction, ends_bind, ends_get, ends_ite]
  split
  · simpa using keeps_send r c
  · simp

theorem keeps_refuseInAutoCommit (call : TransactionCall) :
    Keeps Connection.autoCommit (refuseInAutoCommit (σ := σ) call) := by
  intro c
  simp only [refuseInAutoCommit, ends_bind, ends_get, ends_ite]
  split <;> simp

theorem keeps_refuseBadName (name : Option String) :
    Keeps Connection.autoCommit (refuseBadName (σ := σ) name) := by
  intro c
  unfold refuseBadName
  split <;> simp

variable [Database σ]

instance : LawfulDelegate (Connection σ) where
  flag := Connection.autoCommit
  autoCommit c := by simp [Delegate.autoCommit]
  setAutoCommit on c := by
    simp only [Delegate.setAutoCommit, ends_bind, ends_ite]
    split
    · exact (keeps_endTransaction .commit c).mono (by simp) fun _ _ h => h
    · simp
  commit := keeps_bind (keeps_refuseInAutoCommit _) fun _ => keeps_endTransaction _
  rollback := keeps_bind (keeps_refuseInAutoCommit _) fun _ => keeps_endTransaction _
  setSavepoint name := by
    refine keeps_bind (keeps_refuseInAutoCommit _) fun _ => ?_
    refine keeps_bind (keeps_refuseBadName _) fun _ => ?_
    refine keeps_bind keeps_ensureTransaction fun _ => ?_
    intro c
    simp only [ends_bind, ends_modify, ends_get, ends_discard, ends_pure]
    exact keeps_send _ _
  rollbackTo s := by
    refine keeps_bind (keeps_refuseInAutoCommit _) fun _ c => ?_
    simpa using keeps_send (.rollbackTo s.sqlName) c
  release s c := by simpa [Delegate.release] using keeps_send (.release s.sqlName) c
  execute sql := keeps_bind keeps_ensureTransaction fun _ => keeps_send _
  query sql := keeps_bind keeps_ensureTransaction fun _ => keeps_onDatabase _

end Connection

end DeferredTx.Session
