import DeferredTx.Proofs.Session.Orderly
import DeferredTx.Proofs.Store.Determined

/-!
# The transaction that a connection believes in

A connection over the store keeps a flag of its own that says whether a transaction is open. It follows
the connection's own requests alone, while callers can send texts about transactions as well.

* `Connection.InStep`: the flag says what is the case.
* `Call.LeavesTransaction`, `LeaveTransaction`: calls that leave the transaction to the connection.
* `inTransaction_follows_store`: **they keep the flag in step**, and what other texts do to it.
* `caller_commit_wedges`: a caller's own `COMMIT` gets the connection stuck.
-/

namespace DeferredTx.Store

open Session Sql

/-- Whether all statements of a text can be read, and pass a test. -/
def allRead (test : Sql.Statement → Bool) (sql : String) : Bool :=
  (statements sql).all fun chunk =>
    match Sql.Statement.read .store chunk with
    | some (statement, [⟨.stop, _, _⟩]) => test statement
    | _ => false

theorem allPass_of_allRead {test : Sql.Statement → Bool} {sql : String} (h : allRead test sql = true) :
    allPass test sql = true := by
  refine List.all_eq_true.2 fun chunk hm => ?_
  have hread := List.all_eq_true.1 h chunk hm
  split at hread
  · rename_i statement gap text heq
    rw [heq]
    exact hread
  · cases hread

/-- What `BEGIN` has opened stays open behind a text that ends no transaction. -/
theorem kept_begun_text {sql : String} (h : allPass (fun st => !closes st) sql = true)
    (before : Catalog) :
    Kept (fun s : Store => phaseOf s.transaction = .begun before) (execute sql) ∧
      Kept (fun s : Store => phaseOf s.transaction = .begun before) (query sql) := by
  refine kept_text (fun _ _ hs => hs) (fun statement hc s result s' hs hp => ?_) h
  obtain ⟨u, hu, hby, rfl⟩ := eq_some_of_phaseOf hs
  exact phaseOf_perform (by simpa using hc) hu hby hp

/-- Outside a transaction a text that opens none stays outside. -/
theorem kept_idle_text {sql : String} (h : allPass (fun st => !opens st) sql = true) :
    Kept (fun s : Store => phaseOf s.transaction = .idle) (execute sql) ∧
      Kept (fun s : Store => phaseOf s.transaction = .idle) (query sql) := by
  refine kept_text (fun _ _ hs => hs) (fun statement ho s result s' hs hp => ?_) h
  rw [perform_outside (by simpa using ho) (eq_none_of_phaseOf hs) hp]
  rfl

/-- A statement that ends a transaction ends the one that is open. -/
theorem perform_closing {statement : Sql.Statement} (hc : closes statement = true) {s : Store}
    {u : Transaction} (hs : s.transaction = some u) :
    ∃ s', s.perform statement = .ok (none, s') ∧ s'.transaction = none := by
  cases statement with
  | commit =>
    refine ⟨{ s with transaction := none }, ?_, rfl⟩
    simp only [perform, Store.commit, hs]
    rfl
  | rollback =>
    refine ⟨{ s with tables := u.before, transaction := none }, ?_, rfl⟩
    simp only [perform, Store.rollback, hs]
    rfl
  | _ => cases hc

/-- A statement that opens a transaction does so where there is none. -/
theorem perform_opening {statement : Sql.Statement} (ho : opens statement = true) {s : Store}
    (hs : s.transaction = none) :
    ∃ s', s.perform statement = .ok (none, s') ∧ s'.transaction.isSome = true := by
  cases statement with
  | begin kind =>
    refine ⟨{ s with transaction := some { before := s.tables } }, ?_, rfl⟩
    simp only [perform, Store.begin, hs]
    rfl
  | savepoint name => exact ⟨s.mark name.text, rfl, by simp only [mark, hs]; rfl⟩
  | _ => cases ho

/-- A request of a connection's own that is refused changes nothing. -/
theorem execute_of_refused {r : Request} (hr : r.Proper) {s : Store}
    (h : s.perform (requested r) = .error .refused) : execute r.text s = .error refusal s := by
  have hstep : step (chunk r) s = .error refusal s := by
    unfold step
    rcases read_chunk hr with hnone | hread
    · simp only [hnone]
    · simp only [hread, h]
  rw [execute, statements_text hr]
  simp only [List.foldlM_cons, bind, EStateM.bind, discard, Functor.mapConst, Function.comp_apply,
    EStateM.map, hstep]

end DeferredTx.Store

namespace DeferredTx.Session

open Store (opens closes allPass allRead Sole)
open Transactional (content phase)

/-- A call that leaves the transaction to the connection, of which the flag is `on`. Its text can be read
as a whole, opens no transaction where the connection opens none, and ends none where the connection has
begun one; its savepoint has an identifier for a name. -/
def Call.LeavesTransaction (on : Bool) : Call → Prop
  | .execute sql | .query sql => allRead (fun st => !(if on then opens st else closes st)) sql = true
  | .rollbackTo s | .release s => Savepoint.checkName s.sqlName = .ok ()
  | .setAutoCommit _ | .commit | .rollback | .setSavepoint _ => True

/-- The flag behind a call. -/
def Call.flagAfter (on : Bool) : Call → Bool
  | .setAutoCommit on' => on'
  | _ => on

/-- Calls one after another that leave the transaction to the connection, of which the flag is `on` at
first. -/
def LeaveTransaction (on : Bool) : List Call → Prop
  | [] => True
  | k :: rest => k.LeavesTransaction on ∧ LeaveTransaction (k.flagAfter on) rest

namespace Connection

variable {c : Connection Store}

/-- The connection is in step with the store: either both know of no transaction, or the connection
has begun the one that is open, and its flag is off. -/
def InStep (c : Connection Store) : Prop :=
  ∃ before, c.Undoable before

theorem inStep_of_none (hnot : c.inTransaction = false) (hnone : c.database.transaction = none) :
    c.InStep := by
  refine ⟨c.database.tables, .idle hnot ?_ rfl⟩
  show Store.phaseOf c.database.transaction = .idle
  rw [hnone]
  rfl

theorem InStep.inTransaction_eq (h : c.InStep) :
    c.inTransaction = c.database.transaction.isSome := by
  obtain ⟨before, h⟩ := h
  cases h with
  | idle hnot hphase =>
    rw [hnot, Store.eq_none_of_phaseOf hphase]
    rfl
  | begun hin _ hphase =>
    obtain ⟨u, hu, -⟩ := Store.eq_some_of_phaseOf hphase
    rw [hin, hu]
    rfl

theorem Undoable.inStep {before : Store.Catalog} (h : c.Undoable before) : c.InStep :=
  ⟨before, h⟩

theorem Ended.inStep {after : Store.Catalog} (h : c.Ended after) : c.InStep :=
  ⟨after, .idle h.notIn h.phase h.content⟩

/-- **In step, the connection's own `COMMIT` and `ROLLBACK` succeed**, and no transaction is open
behind them. -/
theorem InStep.ends_endTransaction (h : c.InStep) {r : Request} (hr : r = .commit ∨ r = .rollback) :
    Ends (endTransaction r) c
      (fun _ c' => (∃ after, c'.Ended after) ∧ c'.autoCommit = c.autoCommit) fun _ _ => False := by
  obtain ⟨before, h⟩ := h
  obtain rfl | rfl := hr
  · have hnone : c.Ended before → c.Ended (content c.database) :=
      fun hended => ⟨rfl, hended.phase, hended.notIn⟩
    refine (h.ends_endTransaction_ok (fun hphase => ?_) hnone).mono
      (fun _ _ h' => ⟨⟨_, h'.1⟩, h'.2.2.1⟩) fun _ _ h' => h'
    obtain ⟨n, s', he, hmemory⟩ := Dependable.commit_ok hphase
    obtain ⟨hcontent, hidle⟩ := Transactional.commit hphase he
    exact ⟨n, s', he, hcontent, hidle, hmemory⟩
  · refine (h.ends_endTransaction_ok (fun hphase => ?_) id).mono
      (fun _ _ h' => ⟨⟨_, h'.1⟩, h'.2.2.1⟩) fun _ _ h' => h'
    obtain ⟨n, s', he, hmemory⟩ := Dependable.rollback_ok hphase
    obtain ⟨hcontent, hidle⟩ := Transactional.rollback hphase he
    exact ⟨n, s', he, hcontent, hidle, hmemory⟩

/-- A change of the flag succeeds in step. -/
theorem InStep.ends_setAutoCommit (h : c.InStep) (on : Bool) :
    Ends (Delegate.setAutoCommit on) c (fun _ c' => c'.InStep ∧ c'.autoCommit = on)
      fun _ _ => False := by
  simp only [Delegate.setAutoCommit, ends_bind, ends_ite, ends_modify]
  cases on with
  | true =>
    refine (h.ends_endTransaction (Or.inl rfl)).mono (fun _ c' h' => ?_) fun _ _ h' => h'
    obtain ⟨⟨after, hended⟩, -⟩ := h'
    exact ⟨⟨after, .idle hended.notIn hended.phase hended.content⟩, trivial⟩
  | false =>
    obtain ⟨before, h⟩ := h
    exact ⟨h.setOff.inStep, trivial⟩

/-- A commit or a rollback, refused or not. -/
theorem InStep.ends_closing (h : c.InStep) (call : TransactionCall) {r : Request}
    (hr : r = .commit ∨ r = .rollback) :
    Ends (do refuseInAutoCommit call; endTransaction r) c (fun _ c' => c'.InStep)
      fun _ c' => c'.InStep := by
  rw [ends_bind, ends_refuseInAutoCommit]
  split
  · exact h
  · exact (h.ends_endTransaction hr).mono (fun _ _ h' => h'.1.choose_spec.inStep) fun _ _ h' => h'.elim

/-- A text that leaves the transaction to the connection. -/
theorem InStep.ends_text (h : c.InStep) {α : Type} {act : EStateM StatementError Store α}
    (hidle : c.autoCommit = true → Kept (fun s : Store => phase s = .idle) act)
    (hbegun : c.autoCommit = false → ∀ before, Kept (fun s : Store => phase s = .begun before) act) :
    Ends (do ensureTransaction; onDatabase act) c (fun _ c' => c'.InStep) fun _ c' => c'.InStep := by
  obtain ⟨before, h⟩ := h
  rw [ends_bind]
  refine h.ends_ensureTransaction.mono (fun _ c₁ h₁ => ?_) fun _ _ => Undoable.inStep
  obtain ⟨h₁, hflag, hin⟩ := h₁
  have hstep : InStep { c₁ with database := stateOf (act c₁.database) } := by
    cases h₁ with
    | idle hnot hphase _ =>
      -- with the flag off a transaction would have been begun
      have hon : c.autoCommit = true := by
        cases hflag' : c.autoCommit with
        | true => rfl
        | false => exact absurd (hin hflag') (by simp [hnot])
      exact ⟨_, .idle hnot (hidle hon c₁.database hphase).state rfl⟩
    | begun hin hoff hphase =>
      have hoff' : c.autoCommit = false := hflag ▸ hoff
      exact Undoable.inStep (.begun hin hoff (hbegun hoff' before c₁.database hphase).state)
  rw [ends_onDatabase]
  cases hr : act c₁.database <;> rw [hr] at hstep <;> exact hstep

/-- A request about a savepoint that is there already. -/
theorem InStep.ends_mark (h : c.InStep) {r : Request} (hr : r.Proper) (hm : r.needsMark = true) :
    Ends (discard (send r)) c (fun _ c' => c'.InStep) fun _ c' => c'.InStep := by
  obtain ⟨before, h⟩ := h
  have hmark : r.isMark = true := by cases r <;> first | rfl | cases hm
  rw [ends_discard]
  exact (h.ends_mark hr hmark (Or.inr hm)).mono (fun _ _ => Undoable.inStep)
    fun _ _ => Undoable.inStep

theorem InStep.ends_setSavepoint (h : c.InStep) (name : Option String) :
    Ends (Delegate.setSavepoint name) c (fun _ c' => c'.InStep) fun _ c' => c'.InStep := by
  cases hflag : c.autoCommit with
  | true =>
    simp only [Delegate.setSavepoint, ends_bind, ends_refuseInAutoCommit, hflag, if_true]
    exact h
  | false =>
    obtain ⟨before, h⟩ := h
    exact (h.ends_setSavepoint hflag name).mono (fun _ _ => Undoable.inStep)
      fun _ _ => Undoable.inStep

/-- What a text of the caller's does not contain, by the connection's flag. -/
theorem passes_of_leaves {on : Bool} {sql : String}
    (h : allRead (fun st => !(if on then opens st else closes st)) sql = true) :
    (on = true → allPass (fun st => !opens st) sql = true) ∧
      (on = false → allPass (fun st => !closes st) sql = true) := by
  have hpass := Store.allPass_of_allRead h
  cases on with
  | true => exact ⟨fun _ => hpass, nofun⟩
  | false => exact ⟨nofun, fun _ => hpass⟩

/-- **A call that leaves the transaction to the connection keeps it in step**, whether it succeeds or
fails. -/
theorem InStep.ends_perform (h : c.InStep) {k : Call} (hk : k.LeavesTransaction c.autoCommit) :
    Ends (Delegate.perform k) c
      (fun _ c' => c'.InStep ∧ c'.autoCommit = k.flagAfter c.autoCommit)
      fun _ c' => c'.InStep ∧ c'.autoCommit = k.flagAfter c.autoCommit := by
  cases k <;> simp only [Delegate.perform, ends_bind, ends_pure]
  case setAutoCommit on => exact (h.ends_setAutoCommit on).mono (fun _ _ h' => h') fun _ _ h' => h'.elim
  case commit => exact (h.ends_closing .commit (Or.inl rfl)).and (LawfulDelegate.commit c)
  case rollback => exact (h.ends_closing .rollback (Or.inr rfl)).and (LawfulDelegate.rollback c)
  case setSavepoint name => exact (h.ends_setSavepoint name).and (LawfulDelegate.setSavepoint name c)
  case rollbackTo s =>
    refine Ends.and ?_ (LawfulDelegate.rollbackTo s c)
    simp only [Delegate.rollbackTo]
    rw [ends_bind, ends_refuseInAutoCommit]
    split
    · exact h
    · exact h.ends_mark hk rfl
  case release s =>
    have hproper : (Request.release s.sqlName).Proper := hk
    exact (h.ends_mark hproper rfl).and (LawfulDelegate.release s c)
  case execute sql =>
    obtain ⟨hopens, hcloses⟩ := passes_of_leaves hk
    refine (h.ends_text (fun hon => ?_) fun hoff before => ?_).and (LawfulDelegate.execute sql c)
    · exact (Store.kept_idle_text (hopens hon)).1
    · exact (Store.kept_begun_text (hcloses hoff) before).1
  case query sql =>
    obtain ⟨hopens, hcloses⟩ := passes_of_leaves hk
    refine (h.ends_text (fun hon => ?_) fun hoff before => ?_).and (LawfulDelegate.query sql c)
    · exact (Store.kept_idle_text (hopens hon)).2
    · exact (Store.kept_begun_text (hcloses hoff) before).2

/-- So do any number of them. -/
theorem InStep.trace : ∀ (calls : List Call) {c : Connection Store}, c.InStep →
    LeaveTransaction c.autoCommit calls → ∀ x ∈ trace Delegate.perform calls c, x.2.InStep
  | [], _, _, _ => List.forall_mem_nil _
  | k :: rest, c, h, hcalls => by
    have hnext := (h.ends_perform hcalls.1).state
      (P := fun c' : Connection Store => c'.InStep ∧ c'.autoCommit = k.flagAfter c.autoCommit)
    -- the flag that the next call meets is known, since a change of it cannot fail in step
    refine List.forall_mem_cons.2 ⟨hnext.1, InStep.trace rest hnext.1 ?_⟩
    rw [hnext.2]
    exact hcalls.2

theorem stateOf_onDatabase {α : Type} (act : EStateM StatementError Store α) (c : Connection Store) :
    stateOf (onDatabase act c) = { c with database := stateOf (act c.database) } := by
  unfold onDatabase
  cases act c.database <;> rfl

/-- What a text of the caller's does to the connection, behind the `BEGIN` that may be sent. -/
theorem stateOf_text {c₁ : Connection Store} (h : ensureTransaction c = .ok () c₁) (sql : String) :
    stateOf (Delegate.perform (.execute sql) c) =
        { c₁ with database := stateOf (Store.execute sql c₁.database) } ∧
      stateOf (Delegate.perform (.query sql) c) =
        { c₁ with database := stateOf (Store.query sql c₁.database) } := by
  have hreply : ∀ {α : Type} (act : Action (Connection Store) α) (f : α → Reply),
      stateOf ((do return f (← act) : Action (Connection Store) Reply) c) = stateOf (act c) := by
    intro α act f
    simp only [bind, EStateM.bind]
    cases act c <;> rfl
  have hexecute : Delegate.execute sql c = onDatabase (Store.execute sql) c₁ := bind_of_ok h
  have hquery : Delegate.query sql c = onDatabase (Store.query sql) c₁ := bind_of_ok h
  rw [Delegate.perform, Delegate.perform, hreply, hreply, hexecute, hquery, stateOf_onDatabase,
    stateOf_onDatabase]
  exact ⟨rfl, rfl⟩

/-- In step with its flag off, a connection has a transaction open behind the `BEGIN` that may be
sent. -/
theorem InStep.ensureTransaction_off (h : c.InStep) (hoff : c.autoCommit = false) :
    ∃ c₁, ensureTransaction c = .ok () c₁ ∧ c₁.inTransaction = true ∧
      ∃ u, c₁.database.transaction = some u := by
  obtain ⟨before, h⟩ := h
  have hends := (h.ends_ensureTransaction.and h.ends_ensureTransaction_ok).mono
    (fun _ _ h' => h'.1) fun _ _ h' => h'.2
  obtain ⟨⟨⟩, c₁, hc₁, hundoable, -, hin⟩ := hends.exists_ok
  obtain ⟨u, hu, -⟩ := Store.eq_some_of_phaseOf (hundoable.phase_of_open (hin hoff))
  exact ⟨c₁, hc₁, hin hoff, u, hu⟩

theorem ensureTransaction_on (hon : c.autoCommit = true) : ensureTransaction c = .ok () c := by
  have hends : Ends ensureTransaction c (fun _ c' => c' = c) fun _ _ => False := by
    simp only [ensureTransaction, ends_bind, ends_get, ends_ite, ends_pure, hon, Bool.not_true,
      Bool.false_and, Bool.false_eq_true, if_false]
  obtain ⟨⟨⟩, _, hr, rfl⟩ := hends.exists_ok
  exact hr

/-- **A caller's own `COMMIT` or `ROLLBACK`** ends the transaction, and the connection goes on to
believe in it. -/
theorem InStep.behind_closing (h : c.InStep) (hoff : c.autoCommit = false) {sql : String}
    {statement : Sql.Statement} (hsole : Sole sql statement) (hc : closes statement = true) {k : Call}
    (hk : k = .execute sql ∨ k = .query sql) :
    (stateOf (Delegate.perform k c)).inTransaction = true ∧
      (stateOf (Delegate.perform k c)).database.transaction = none := by
  obtain ⟨c₁, hc₁, hin, u, hu⟩ := h.ensureTransaction_off hoff
  obtain ⟨s', hp, hnone⟩ := Store.perform_closing hc hu
  obtain ⟨hexecute, hquery⟩ := stateOf_text hc₁ sql
  obtain rfl | rfl := hk
  · rw [hexecute, Store.execute_of_sole hsole hp]
    exact ⟨hin, hnone⟩
  · rw [hquery, Store.query_of_sole hsole hp]
    exact ⟨hin, hnone⟩

/-- **A caller's own `BEGIN` or `SAVEPOINT`**, while the flag is on, opens a transaction of which the
connection does not know. -/
theorem InStep.behind_opening (h : c.InStep) (hon : c.autoCommit = true) {sql : String}
    {statement : Sql.Statement} (hsole : Sole sql statement) (ho : opens statement = true) {k : Call}
    (hk : k = .execute sql ∨ k = .query sql) :
    (stateOf (Delegate.perform k c)).inTransaction = false ∧
      (stateOf (Delegate.perform k c)).database.transaction.isSome = true := by
  have hnot : c.inTransaction = false := by
    obtain ⟨before, h⟩ := h
    cases hin : c.inTransaction with
    | false => rfl
    | true => exact absurd (h.off_of_open hin) (by simp [hon])
  have hnone : c.database.transaction = none := by
    rw [← Option.not_isSome_iff_eq_none, ← h.inTransaction_eq, hnot]
    exact Bool.false_ne_true
  obtain ⟨s', hp, hsome⟩ := Store.perform_opening ho hnone
  obtain ⟨hexecute, hquery⟩ := stateOf_text (ensureTransaction_on hon) sql
  obtain rfl | rfl := hk
  · rw [hexecute, Store.execute_of_sole hsole hp]
    exact ⟨hnot, hsome⟩
  · rw [hquery, Store.query_of_sole hsole hp]
    exact ⟨hnot, hsome⟩

/-- The transaction can be ended in step. -/
theorem InStep.ends_transaction (h : c.InStep) (hoff : c.autoCommit = false) {k : Call}
    (hk : k ∈ [Call.setAutoCommit true, .commit, .rollback]) :
    ∃ c', Delegate.perform k c = .ok .done c' := by
  have hends : Ends (Delegate.perform k) c (fun r _ => r = .done) fun _ _ => False := by
    simp only [List.mem_cons, List.not_mem_nil, or_false] at hk
    obtain rfl | rfl | rfl := hk
    · simp only [Delegate.perform, ends_bind, ends_pure]
      exact (h.ends_setAutoCommit true).mono (fun _ _ _ => trivial) fun _ _ h' => h'
    · simp only [Delegate.perform, Delegate.commit, ends_bind, ends_pure, ends_refuseInAutoCommit, hoff,
        Bool.false_eq_true, if_false]
      exact (h.ends_endTransaction (Or.inl rfl)).mono (fun _ _ _ => trivial) fun _ _ h' => h'
    · simp only [Delegate.perform, Delegate.rollback, ends_bind, ends_pure, ends_refuseInAutoCommit, hoff,
        Bool.false_eq_true, if_false]
      exact (h.ends_endTransaction (Or.inr rfl)).mono (fun _ _ _ => trivial) fun _ _ h' => h'
  obtain ⟨_, c', hr, rfl⟩ := hends.exists_ok
  exact ⟨c', hr⟩

/-- A request of the connection's own that the store refuses. -/
theorem ends_send_of_refused {r : Request} (hr : r.Proper)
    (h : c.database.perform (Store.requested r) = .error .refused)
    {Q : Nat → Connection Store → Prop} {R : DbError → Connection Store → Prop} :
    Ends (send r) c Q R ↔ R (.statement Store.refusal) c := by
  rw [send, ends_onDatabase]
  simp only [Database.execute, Store.execute_of_refused hr h]

/-- A connection that believes in a transaction that is not there cannot end it. -/
theorem ends_endTransaction_wedged (hin : c.inTransaction = true) (hnone : c.database.transaction = none)
    {r : Request} (hr : r = .commit ∨ r = .rollback) :
    Ends (endTransaction r) c (fun _ _ => False) fun _ c' => c' = c := by
  have hrefused : r.Proper ∧ c.database.perform (Store.requested r) = .error .refused := by
    obtain rfl | rfl := hr
    · refine ⟨trivial, ?_⟩
      simp only [Store.requested, Store.perform, Store.commit, hnone]
      rfl
    · refine ⟨trivial, ?_⟩
      simp only [Store.requested, Store.perform, Store.rollback, hnone]
      rfl
  simp only [endTransaction, ends_bind, ends_get, ends_ite, hin, if_true, ends_discard,
    ends_send_of_refused hrefused.1 hrefused.2]

/-- **Neither can it commit or roll back, nor can its flag be switched on.** -/
theorem wedged_without (hin : c.inTransaction = true) (hnone : c.database.transaction = none) {k : Call}
    (hk : k ∈ [Call.setAutoCommit true, .commit, .rollback]) :
    ∃ e, Delegate.perform k c = .error e c := by
  have hends : Ends (Delegate.perform k) c (fun _ _ => False) fun _ c' => c' = c := by
    simp only [List.mem_cons, List.not_mem_nil, or_false] at hk
    obtain rfl | rfl | rfl := hk
    · simp only [Delegate.perform, Delegate.setAutoCommit, ends_bind, if_true]
      exact (ends_endTransaction_wedged hin hnone (Or.inl rfl)).mono (fun _ _ h' => h'.elim)
        fun _ _ h' => h'
    · simp only [Delegate.perform, Delegate.commit, ends_bind, ends_refuseInAutoCommit]
      split
      · trivial
      · exact (ends_endTransaction_wedged hin hnone (Or.inl rfl)).mono (fun _ _ h' => h'.elim)
          fun _ _ h' => h'
    · simp only [Delegate.perform, Delegate.rollback, ends_bind, ends_refuseInAutoCommit]
      split
      · trivial
      · exact (ends_endTransaction_wedged hin hnone (Or.inr rfl)).mono (fun _ _ h' => h'.elim)
          fun _ _ h' => h'
  obtain ⟨e, _, hr, rfl⟩ := hends.exists_error
  exact ⟨e, hr⟩

/-- A connection that does not know of the transaction that is open cannot begin one. -/
theorem ends_ensureTransaction_wedged (hoff : c.autoCommit = false) (hnot : c.inTransaction = false)
    (hsome : c.database.transaction.isSome = true) :
    Ends ensureTransaction c (fun _ _ => False) fun _ c' => c' = c := by
  have hrefused : c.database.perform (Store.requested .begin) = .error .refused := by
    obtain ⟨u, hu⟩ := Option.isSome_iff_exists.1 hsome
    simp only [Store.requested, Store.perform, Store.begin, hu]
    rfl
  have hproper : Request.begin.Proper := trivial
  simp only [ensureTransaction, ends_bind, ends_get, ends_ite, hoff, hnot, Bool.not_false, Bool.and_self,
    if_true, ends_discard, ends_send_of_refused hproper hrefused]

/-- **It passes no text on and makes no savepoint.** -/
theorem wedged_within (hoff : c.autoCommit = false) (hnot : c.inTransaction = false)
    (hsome : c.database.transaction.isSome = true) {k : Call} {sql : String} {name : Option String}
    (hk : k ∈ [Call.execute sql, .query sql, .setSavepoint name]) :
    ∃ e, Delegate.perform k c = .error e c := by
  have hbegin := ends_ensureTransaction_wedged hoff hnot hsome
  have hends : Ends (Delegate.perform k) c (fun _ _ => False) fun _ c' => c' = c := by
    simp only [List.mem_cons, List.not_mem_nil, or_false] at hk
    obtain rfl | rfl | rfl := hk
    · simp only [Delegate.perform, Delegate.execute, ends_bind]
      exact hbegin.mono (fun _ _ h' => h'.elim) fun _ _ h' => h'
    · simp only [Delegate.perform, Delegate.query, ends_bind]
      exact hbegin.mono (fun _ _ h' => h'.elim) fun _ _ h' => h'
    · simp only [Delegate.perform, Delegate.setSavepoint, ends_bind, ends_refuseInAutoCommit, hoff,
        Bool.false_eq_true, if_false]
      refine ends_refuseBadName name c (fun _ => rfl) fun _ => ?_
      exact hbegin.mono (fun _ _ h' => h'.elim) fun _ _ h' => h'
  obtain ⟨e, _, hr, rfl⟩ := hends.exists_error
  exact ⟨e, hr⟩

end Connection

/-- **The flag for the transaction follows the store** as long as callers leave the transaction to the
connection, in texts that the store can read: behind every call it says whether the store has one open,
and while it does, the connection can end the transaction. It follows no text: a `COMMIT` or `ROLLBACK`
of the caller's own, while the flag for auto-commit is off, ends the transaction behind its back, and a
`BEGIN` or `SAVEPOINT`, while that flag is on, opens one. Either way the connection gets stuck: it can
neither commit nor roll back nor go back to auto-commit, or with auto-commit off it can pass no text on
and make no savepoint. -/
theorem inTransaction_follows_store {c : Connection Store} :
    (∀ {calls : List Call}, c.inTransaction = false → c.database.transaction = none →
      LeaveTransaction c.autoCommit calls → ∀ x ∈ trace Delegate.perform calls c,
        x.2.InStep ∧ x.2.inTransaction = x.2.database.transaction.isSome) ∧
    (c.InStep → c.autoCommit = false → ∀ k ∈ [Call.setAutoCommit true, .commit, .rollback],
      ∃ c', Delegate.perform k c = .ok .done c') ∧
    (∀ {sql statement k}, c.InStep → c.autoCommit = false → Sole sql statement →
      closes statement = true → (k = .execute sql ∨ k = .query sql) →
        (stateOf (Delegate.perform k c)).inTransaction = true ∧
          (stateOf (Delegate.perform k c)).database.transaction = none) ∧
    (∀ {sql statement k}, c.InStep → c.autoCommit = true → Sole sql statement →
      opens statement = true → (k = .execute sql ∨ k = .query sql) →
        (stateOf (Delegate.perform k c)).inTransaction = false ∧
          (stateOf (Delegate.perform k c)).database.transaction.isSome = true) ∧
    (c.inTransaction = true → c.database.transaction = none →
      ∀ k ∈ [Call.setAutoCommit true, .commit, .rollback], ∃ e, Delegate.perform k c = .error e c) ∧
    (c.autoCommit = false → c.inTransaction = false → c.database.transaction.isSome = true →
      ∀ sql name, ∀ k ∈ [Call.execute sql, .query sql, .setSavepoint name],
        ∃ e, Delegate.perform k c = .error e c) := by
  refine ⟨fun hnot hnone hcalls x hx => ?_, fun h hoff k hk => h.ends_transaction hoff hk,
    fun h hoff hsole hc hk => h.behind_closing hoff hsole hc hk,
    fun h hon hsole ho hk => h.behind_opening hon hsole ho hk,
    fun hin hnone _ hk => Connection.wedged_without hin hnone hk,
    fun hoff hnot hsome _ _ _ hk => Connection.wedged_within hoff hnot hsome hk⟩
  have h := (Connection.inStep_of_none hnot hnone).trace _ hcalls x hx
  exact ⟨h, h.inTransaction_eq⟩

/-- A caller whose `BEGIN` and `COMMIT` come at times at which the store refuses them. -/
theorem refused_control_in_step :
    let calls : List Call := [.execute "CREATE TABLE t (a INTEGER)", .setAutoCommit false,
      .execute "INSERT INTO t VALUES (1)", .execute "BEGIN", .setSavepoint none, .rollbackTo ⟨1, none⟩,
      .setAutoCommit true, .execute "COMMIT", .query "SELECT a FROM t"]
    let c : Connection Store := { database := {}, kind := .sqlite }
    LeaveTransaction c.autoCommit calls ∧
      (trace Delegate.perform calls c).map (fun x => (x.1.toOption.isSome, x.2.inTransaction)) =
        [(true, false), (true, false), (true, true), (false, true), (true, true), (true, true),
          (true, false), (false, false), (true, false)] ∧
      ∀ x ∈ trace Delegate.perform calls c,
        x.2.InStep ∧ x.2.inTransaction = x.2.database.transaction.isSome := by
  intro calls c
  have hcalls : LeaveTransaction c.autoCommit calls := by
    have hname : Savepoint.checkName (Savepoint.sqlName ⟨1, none⟩) = .ok () :=
      Savepoint.checkName_generated 1
    refine ⟨?_, trivial, ?_, ?_, trivial, hname, trivial, ?_, ?_, trivial⟩
    all_goals
      rw [Call.LeavesTransaction]
      decide +kernel
  exact ⟨hcalls, by decide +kernel, inTransaction_follows_store.1 rfl rfl hcalls⟩

/-- **A caller's own `COMMIT` gets the connection stuck**: it goes on to believe in a transaction that
has ended. -/
theorem caller_commit_wedges :
    let c := (run Delegate.perform [.setAutoCommit false, .execute "CREATE TABLE t (a INTEGER)",
      .execute "COMMIT"] ({ database := {}, kind := .sqlite } : Connection Store)).2
    Arises Connection.IsFresh c ∧ c.inTransaction = true ∧ c.database.transaction = none ∧
      ∀ k ∈ [Call.setAutoCommit true, .commit, .rollback], ∃ e, Delegate.perform k c = .error e c := by
  intro c
  have hin : c.inTransaction = true := by decide +kernel
  have hnone : c.database.transaction = none := by
    have hisNone : c.database.transaction.isNone = true := by decide +kernel
    exact Option.isNone_iff_eq_none.1 hisNone
  exact ⟨.run _ (.fresh ⟨rfl, rfl, rfl⟩), hin, hnone, fun _ => Connection.wedged_without hin hnone⟩

end DeferredTx.Session
