import DeferredTx.Proofs.Session.Orderly
import DeferredTx.Proofs.Store.Transaction

/-!
# Rollback undoes and commit keeps

Work that a controller does over a connection with auto-commit off can be undone up to the point at
which no transaction was open, and it is kept by a commit.

* `Returned`: the savepoints that callers have got from a controller; their names are identifiers.
* `Op.Work`: the operations between two ends of a transaction.
* `Controller.Pending`: the invariant of the work, kept by every such operation.
* `rollback_undoes_commit_keeps`: **the content behind a rollback and behind a commit.**
-/

namespace DeferredTx.Session

open Transactional (content phase)

variable {σ κ : Type}

namespace Connection

/-- The name of a savepoint that a connection makes is an identifier. -/
theorem checkName_sqlName {name : Option String}
    (h : ∀ n, name = some n → Savepoint.checkName n = .ok ()) (id : UInt32) :
    Savepoint.checkName (Savepoint.sqlName ⟨id, name⟩) = .ok () := by
  cases name with
  | none => exact Savepoint.checkName_generated id
  | some n => exact h n rfl

variable [Database σ]

theorem ends_setSavepoint_name (name : Option String) (c : Connection σ) :
    Ends (Delegate.setSavepoint name) c (fun s _ => Savepoint.checkName s.sqlName = .ok ())
      fun _ _ => True := by
  refine ends_bind_last _ fun _ c₁ => ?_
  rw [ends_bind]
  refine ends_refuseBadName name c₁ (fun _ => trivial) fun hname => ?_
  refine ends_bind_last _ fun _ c₂ => ?_
  simp only [ends_bind, ends_modify, ends_get]
  refine ends_bind_last _ fun _ c₃ => ?_
  exact checkName_sqlName hname _

variable [Transactional σ κ] {S after : κ} {c : Connection σ}

/-- No transaction is open, and the content is `S`. -/
structure Ended (S : κ) (c : Connection σ) : Prop where
  content : content c.database = S
  phase : phase c.database = .idle
  notIn : c.inTransaction = false

/-- Without a transaction there is nothing to end. -/
theorem Undoable.ended (h : Undoable S c) (hnot : c.inTransaction = false) : Ended S c := by
  cases h with
  | idle _ hphase hcontent => exact ⟨hcontent, hphase, hnot⟩
  | begun hin => exact absurd hin (by simp [hnot])

/-- The end of a transaction, by what the database makes of the request for it. -/
theorem Undoable.ends_endTransaction (h : Undoable S c) {r : Request}
    (hr : ∀ n s', phase c.database = .begun S → Database.execute r c.database = .ok n s' →
      content s' = after ∧ phase s' = .idle)
    (hnone : Ended S c → Ended after c) :
    Ends (endTransaction r) c (fun _ c' => Ended after c') fun _ _ => True := by
  simp only [endTransaction, ends_bind, ends_get, ends_ite, ends_pure]
  cases hin : c.inTransaction with
  | false => exact hnone (h.ended hin)
  | true =>
    cases h with
    | idle hnot => exact absurd hin (by simp [hnot])
    | begun _ hoff hphase =>
      simp only [if_true, ends_discard, send, ends_onDatabase]
      cases he : Database.execute r c.database with
      | error e s' => trivial
      | ok n s' =>
        obtain ⟨hcontent', hphase'⟩ := hr n s' hphase he
        exact ⟨hcontent', hphase', rfl⟩

/-- A new savepoint, while the flag is off: a transaction is begun in front of it. -/
theorem Undoable.ends_setSavepoint (h : Undoable S c) (hoff : c.autoCommit = false)
    (name : Option String) :
    Ends (Delegate.setSavepoint name) c (fun _ c' => Undoable S c') fun _ c' => Undoable S c' := by
  simp only [Delegate.setSavepoint, ends_bind, ends_refuseInAutoCommit]
  rw [if_neg (by simp [hoff])]
  refine ends_refuseBadName name c (fun _ => h) fun hname => ?_
  refine h.ends_ensureTransaction.mono (fun _ c₁ h₁ => ?_) fun _ _ h' => h'
  obtain ⟨h₁, -, hin⟩ := h₁
  simp only [ends_modify, ends_get, ends_discard, ends_pure]
  have h₂ : Undoable S { c₁ with savepoints := c₁.savepoints + 1 } := by
    cases h₁ with
    | idle hnot hphase hcontent => exact .idle hnot hphase hcontent
    | begun hin hoff hphase => exact .begun hin hoff hphase
  exact h₂.ends_mark (checkName_sqlName hname _) rfl (Or.inl (hin hoff))

/-- Switching the flag on has nothing to end any more. -/
theorem Ended.ends_setOn (h : Ended after c) :
    Ends (Delegate.setAutoCommit true) c (fun _ c' => Ended after c') fun _ _ => True := by
  simp only [Delegate.setAutoCommit, endTransaction, ends_bind, ends_get, ends_ite, ends_pure, h.notIn]
  exact ⟨h.content, h.phase, h.notIn⟩

end Connection

variable [Database σ]

variable (σ) in
/-- The savepoints that a caller has got from a controller, at any time. -/
def Returned (s : Savepoint) : Prop :=
  ∃ (c c' : Controller (Connection σ)) (name : Option String),
    Controller.perform (.call (.setSavepoint name)) c = .ok (.savepoint s) c'

theorem Returned.checkName {s : Savepoint} (h : Returned σ s) :
    Savepoint.checkName s.sqlName = .ok () := by
  obtain ⟨c, c', name, hr⟩ := h
  have hmake : ∀ c₁ : Controller (Connection σ),
      Ends (Controller.onDelegate (Delegate.setSavepoint name)) c₁
        (fun s _ => Savepoint.checkName s.sqlName = .ok ()) fun _ _ => True := by
    intro c₁
    rw [ends_onDelegate]
    exact Connection.ends_setSavepoint_name name c₁.delegate
  have hset : Ends (Controller.setSavepoint name) c
      (fun s _ => Savepoint.checkName s.sqlName = .ok ()) fun _ _ => True := by
    refine ends_bind_last _ fun _ c₁ => ends_bind_last _ fun on c₂ => ?_
    rw [ends_ite]
    split
    · exact ends_bind_last _ fun _ c₃ => hmake c₃
    · exact hmake c₂
  have hperform : Ends (Controller.perform (.call (.setSavepoint name))) c
      (fun r _ => ∀ t, r = .savepoint t → Savepoint.checkName t.sqlName = .ok ())
      fun _ _ => True := by
    simp only [Controller.perform, ends_bind, ends_pure]
    refine hset.mono (fun t _ ht t' heq => ?_) fun _ _ _ => trivial
    rw [← Reply.savepoint.inj heq]
    exact ht
  exact hperform.of_ok hr s rfl

variable [Transactional σ κ]

variable (σ) in
/-- The operations of work between two ends of a transaction: texts without transaction control that
are taken for writes, or do not change the content, or are executed as prepared; and savepoints. -/
def Op.Work : Op → Prop
  | .call (.execute sql) | .call (.query sql) | .preparedQuery sql =>
    NoControl σ sql ∧ (Statement.isWrite sql = true ∨ ReadOnly σ sql)
  | .preparedExecute sql => NoControl σ sql
  | .call (.setSavepoint _) => True
  | .call (.rollbackTo s) | .call (.release s) => Returned σ s
  | _ => False

namespace Controller

/-- The caller's mode is off, and the work on the connection can be undone to the content `S`. -/
structure Pending (S : κ) (c : Controller (Connection σ)) : Prop where
  off : c.autoCommit = false
  undoable : c.delegate.Undoable S

variable {S : κ} {c : Controller (Connection σ)}

theorem Pending.delegate (h : Pending S c) {d : Connection σ} (hd : d.Undoable S) :
    Pending S { c with delegate := d } :=
  ⟨h.off, hd⟩

theorem Pending.ends_onDelegate {α : Type} (h : Pending S c) {act : Action (Connection σ) α}
    (hact : Ends act c.delegate (fun _ d => d.Undoable S) fun _ d => d.Undoable S) :
    Ends (onDelegate act) c (fun _ c' => Pending S c') fun _ c' => Pending S c' := by
  rw [Session.ends_onDelegate]
  exact hact.mono (fun _ _ hd => h.delegate hd) fun _ _ hd => h.delegate hd

theorem ends_delegateAutoCommit_connection (c : Controller (Connection σ))
    {Q : Bool → Controller (Connection σ) → Prop} {R : DbError → Controller (Connection σ) → Prop} :
    Ends delegateAutoCommit c Q R ↔ Q c.delegate.autoCommit c := Iff.rfl

theorem ends_suspend_connection (c : Controller (Connection σ))
    {Q : Unit → Controller (Connection σ) → Prop} {R : DbError → Controller (Connection σ) → Prop} :
    Ends (setDelegateAutoCommit false) c Q R ↔
      Q () { c with delegate := { c.delegate with autoCommit := false } } := Iff.rfl

/-- The work stays undoable behind a suspension; if there was need for one, the flag is off. -/
theorem Pending.ends_beforeExecute (h : Pending S c) (sql : String) (always : Bool) :
    Ends (beforeExecute sql always) c
      (fun _ c' => Pending S c' ∧
        ((always || Statement.isWrite sql) = true → c'.delegate.autoCommit = false))
      fun _ c' => Pending S c' := by
  simp only [beforeExecute, ends_bind, ends_get, ends_ite, ends_pure,
    ends_delegateAutoCommit_connection, ends_suspend_connection]
  rw [if_pos (by simp [h.off])]
  generalize (always || Statement.isWrite sql) = need
  split
  · split
    · exact ⟨h.delegate h.undoable.setOff, fun _ => trivial⟩
    · exact ⟨h, fun hneed => absurd hneed ‹_›⟩
  · exact ⟨h, fun _ => by simpa using ‹¬c.delegate.autoCommit = true›⟩

/-- A text that is passed on behind a suspension leaves the work undoable, if there was need for the
suspension or the text does not change the content. -/
theorem Pending.ends_forward {α : Type} (h : Pending S c) {act : EStateM StatementError σ α}
    (hact : ∀ s, phase (stateOf (act s)) = phase s) {sql : String} {always : Bool}
    (hsafe : (always || Statement.isWrite sql) = true ∨
      ∀ s, content (stateOf (act s)) = content s) :
    Ends (do beforeExecute sql always
             onDelegate (do Connection.ensureTransaction; Connection.onDatabase act)) c
      (fun _ c' => Pending S c') fun _ c' => Pending S c' := by
  rw [ends_bind]
  refine (h.ends_beforeExecute sql always).mono ?_ fun _ _ h' => h'
  rintro - c₁ ⟨h₁, hoff⟩
  exact h₁.ends_onDelegate (h₁.undoable.ends_text act hact (hsafe.imp hoff id))

theorem Pending.ends_setSavepoint (h : Pending S c) (name : Option String) :
    Ends (setSavepoint name) c (fun _ c' => Pending S c') fun _ c' => Pending S c' := by
  simp only [setSavepoint, ends_bind, ends_refuseInAutoCommit, ends_ite,
    ends_delegateAutoCommit_connection, ends_suspend_connection]
  rw [if_neg (by simp [h.off])]
  split
  · exact (h.delegate h.undoable.setOff).ends_onDelegate (h.undoable.setOff.ends_setSavepoint rfl name)
  · have hoff : c.delegate.autoCommit = false := by simpa using ‹¬c.delegate.autoCommit = true›
    exact h.ends_onDelegate (h.undoable.ends_setSavepoint hoff name)

/-- An action that is run unless the delegate is in auto-commit. -/
theorem Pending.ends_unlessAutoCommit (h : Pending S c) {act : Action (Connection σ) Unit}
    (hact : c.delegate.autoCommit = false →
      Ends act c.delegate (fun _ d => d.Undoable S) fun _ d => d.Undoable S) :
    Ends (do if !(← delegateAutoCommit) then onDelegate act) c (fun _ c' => Pending S c')
      fun _ c' => Pending S c' := by
  simp only [ends_bind, ends_delegateAutoCommit_connection, ends_ite, ends_pure]
  split
  · exact h.ends_onDelegate (hact (by simpa using ‹(!c.delegate.autoCommit) = true›))
  · exact h

theorem Pending.ends_rollbackTo (h : Pending S c) {s : Savepoint}
    (hs : Savepoint.checkName s.sqlName = .ok ()) :
    Ends (rollbackTo s) c (fun _ c' => Pending S c') fun _ c' => Pending S c' := by
  simp only [rollbackTo, ends_bind, ends_refuseInAutoCommit]
  rw [if_neg (by simp [h.off])]
  refine h.ends_unlessAutoCommit fun hoff => ?_
  simp only [Delegate.rollbackTo, ends_bind, Connection.ends_refuseInAutoCommit, ends_discard]
  rw [if_neg (by simp [hoff])]
  exact h.undoable.ends_mark (by exact hs) rfl (Or.inr rfl)

theorem Pending.ends_release (h : Pending S c) {s : Savepoint}
    (hs : Savepoint.checkName s.sqlName = .ok ()) :
    Ends (release s) c (fun _ c' => Pending S c') fun _ c' => Pending S c' := by
  refine h.ends_unlessAutoCommit fun _ => ?_
  simp only [Delegate.release, ends_discard]
  exact h.undoable.ends_mark (by exact hs) rfl (Or.inr rfl)

/-- **Every operation of the work leaves it undoable**, whether it succeeds or fails. -/
theorem Pending.ends_perform (h : Pending S c) {op : Op} (hop : op.Work σ) :
    Ends (perform op) c (fun _ c' => Pending S c') fun _ c' => Pending S c' := by
  cases op with
  | call k =>
    cases k <;> simp only [perform, ends_bind, ends_pure]
    case execute sql =>
      obtain ⟨hcontrol, hsafe⟩ := hop
      exact h.ends_forward (fun s => (hcontrol s).1) (hsafe.imp id fun hr s => (hr s).1)
    case query sql =>
      obtain ⟨hcontrol, hsafe⟩ := hop
      exact h.ends_forward (fun s => (hcontrol s).2) (hsafe.imp id fun hr s => (hr s).2)
    case setSavepoint name => exact h.ends_setSavepoint name
    case rollbackTo s => exact h.ends_rollbackTo (Returned.checkName hop)
    case release s => exact h.ends_release (Returned.checkName hop)
    all_goals exact hop.elim
  | setSmartCommit on => exact hop.elim
  | beforeExecute sql always => exact hop.elim
  | preparedExecute sql =>
    simp only [perform, ends_bind, ends_pure]
    exact h.ends_forward (fun s => (hop s).1) (Or.inl rfl)
  | preparedQuery sql =>
    obtain ⟨hcontrol, hsafe⟩ := hop
    simp only [perform, ends_bind, ends_pure]
    exact h.ends_forward (fun s => (hcontrol s).2) (hsafe.imp id fun hr s => (hr s).2)

/-- So does work of any length. -/
theorem Pending.run (h : Pending S c) {ops : List Op} (hops : ∀ op ∈ ops, op.Work σ) :
    Pending S (Session.run perform ops c).2 :=
  kept_run (fun op hop _ hc => Pending.ends_perform hc (hops op hop)) h

/-- The end of a transaction through the controller, by what the connection makes of the request. -/
theorem Pending.ends_endTransaction {after : κ} (h : Pending S c) (call : TransactionCall) {r : Request}
    (hr : ∀ n s', phase c.delegate.database = .begun S →
      Database.execute r c.delegate.database = .ok n s' → content s' = after ∧ phase s' = .idle)
    (hnone : c.delegate.Ended S → c.delegate.Ended after) :
    Ends (endTransaction call do
        Connection.refuseInAutoCommit call
        Connection.endTransaction r) c
      (fun _ c' => c'.delegate.Ended after) fun _ _ => True := by
  have hact : Ends (onDelegate do
      Connection.refuseInAutoCommit call
      Connection.endTransaction r) c (fun _ c' => c'.delegate.Ended after) fun _ _ => True := by
    simp only [Session.ends_onDelegate, ends_bind, Connection.ends_refuseInAutoCommit]
    split
    · trivial
    · exact h.undoable.ends_endTransaction hr hnone
  have hon : ∀ c₁ : Controller (Connection σ), c₁.delegate.Ended after →
      Ends (setDelegateAutoCommit true) c₁ (fun _ c' => c'.delegate.Ended after) fun _ _ => True := by
    intro c₁ h₁
    rw [setDelegateAutoCommit, Session.ends_onDelegate]
    exact h₁.ends_setOn
  simp only [endTransaction, ends_bind, ends_refuseInAutoCommit, ends_get, ends_ite,
    ends_delegateAutoCommit_connection]
  rw [if_neg (by simp [h.off])]
  split
  · split
    · exact hact.mono (fun _ c₁ h₁ => hon c₁ h₁) fun _ _ _ => trivial
    · -- a connection whose flag is on has no transaction open
      refine hon c (hnone (h.undoable.ended ?_))
      cases h.undoable with
      | idle hnot => exact hnot
      | begun _ hoff => simp [hoff] at *
  · exact hact

end Controller

/-- **Rollback undoes and commit keeps.** From a state with auto-commit off and no transaction open,
work of any length, whatever of it fails, is undone by a successful rollback and kept by a successful
commit; either way no transaction is open afterwards. -/
theorem rollback_undoes_commit_keeps {c : Controller (Connection σ)} (hoff : c.autoCommit = false)
    (hnot : c.delegate.inTransaction = false) (hidle : phase c.delegate.database = .idle)
    (ops : List Op) (hops : ∀ op ∈ ops, op.Work σ) :
    (∀ r c', Controller.perform (.call .rollback) (run Controller.perform ops c).2 = .ok r c' →
      c'.delegate.Ended (content c.delegate.database)) ∧
    ∀ r c', Controller.perform (.call .commit) (run Controller.perform ops c).2 = .ok r c' →
      c'.delegate.Ended (content (run Controller.perform ops c).2.delegate.database) := by
  have hstart : Controller.Pending (content c.delegate.database) c :=
    ⟨hoff, .idle hnot hidle rfl⟩
  have hwork := hstart.run hops
  generalize (run Controller.perform ops c).2 = c₁ at hwork ⊢
  have hback : Ends (Controller.perform (.call .rollback)) c₁
      (fun _ c' => c'.delegate.Ended (content c.delegate.database)) fun _ _ => True := by
    simp only [Controller.perform, ends_bind, ends_pure]
    exact hwork.ends_endTransaction .rollback (fun _ _ h he => Transactional.rollback h he) id
  have hkeep : Ends (Controller.perform (.call .commit)) c₁
      (fun _ c' => c'.delegate.Ended (content c₁.delegate.database)) fun _ _ => True := by
    simp only [Controller.perform, ends_bind, ends_pure]
    exact hwork.ends_endTransaction .commit (fun _ _ h he => Transactional.commit h he)
      fun h => ⟨rfl, h.phase, h.notIn⟩
  exact ⟨fun _ _ hr => hback.of_ok hr, fun _ _ hr => hkeep.of_ok hr⟩

/-- A table that is created, written to and rolled back over an empty store is gone. -/
theorem rollback_undoes_table :
    let c : Controller (Connection Store) := ⟨{ database := {}, kind := .sqlite }, false, true⟩
    let ops : List Op := [.call (.execute "CREATE TABLE t (a INTEGER)"), .call (.setSavepoint none),
      .call (.execute "INSERT INTO t VALUES (1)")]
    (∀ op ∈ ops, op.Work Store) ∧
      (run Controller.perform ops c).2.delegate.database.tables.tables.length = 1 ∧
      ∃ c', Controller.perform (.call .rollback) (run Controller.perform ops c).2 = .ok .done c' ∧
        c'.delegate.Ended {} := by
  intro c ops
  have htable : Op.Work Store (.call (.execute "CREATE TABLE t (a INTEGER)")) :=
    ⟨Store.noControl (by decide +kernel), Or.inl (by decide +kernel)⟩
  have hrow : Op.Work Store (.call (.execute "INSERT INTO t VALUES (1)")) :=
    ⟨Store.noControl (by decide +kernel), Or.inl (by decide +kernel)⟩
  have hops : ∀ op ∈ ops, op.Work Store := by
    simp only [ops, List.forall_mem_cons]
    exact ⟨htable, trivial, hrow, nofun⟩
  have hdone : ∃ c', Controller.perform (.call .rollback) (run Controller.perform ops c).2 =
      .ok .done c' := by
    have heval : (match Controller.perform (.call .rollback) (run Controller.perform ops c).2 with
      | .ok .done _ => true
      | _ => false) = true := by decide +kernel
    split at heval
    · exact ⟨_, ‹_›⟩
    · cases heval
  obtain ⟨c', hc'⟩ := hdone
  exact ⟨hops, by decide +kernel, c', hc',
    (rollback_undoes_commit_keeps rfl rfl rfl ops hops).1 _ _ hc'⟩

end DeferredTx.Session
