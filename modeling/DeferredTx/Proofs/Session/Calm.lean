import DeferredTx.Proofs.Session.Journal
import DeferredTx.Proofs.Session.Script

/-!
# Work that only reads

Under smart commit, work that only reads asks nothing of a delegate in auto-commit but its flag, and
passes its texts on. So it stays there, and a connection sends nothing of its own.

* `Op.ReadsOnly`: the operations of such work, ends of transactions and savepoints that are there
  included.
* `DelegateCall.Calm`, `Controller.calm_script`: the calls that come of them.
* `AtRest`, `AtRest.kept_perform`: a property of delegates in auto-commit that calm calls keep is kept
  by the work.
* `read_only_work_stays`: **work that only reads never leaves auto-commit.**
-/

namespace DeferredTx.Session

open LawfulDelegate (flag)

variable {δ σ : Type}

/-- The operations of work that only reads: texts that are not taken for writes, changes of the
caller's mode, ends of a transaction, and what is done with savepoints that are there already. -/
def Op.ReadsOnly : Op → Prop
  | .call (.execute sql) | .call (.query sql) | .preparedQuery sql => Statement.isWrite sql = false
  | .call (.setAutoCommit _) | .call .commit | .call .rollback => True
  | .call (.rollbackTo _) | .call (.release _) => True
  | .call (.setSavepoint _) | .setSmartCommit _ | .beforeExecute .. | .preparedExecute _ => False

/-- The calls that ask for the flag, switch it on, or pass a text on. Commits, rollbacks and whatever
is about savepoints are none of them. -/
def DelegateCall.Calm : DelegateCall → Prop
  | .autoCommit | .call (.setAutoCommit true) | .call (.execute _) | .call (.query _) => True
  | .call (.setAutoCommit false) | .call .commit | .call .rollback | .close => False
  | .call (.setSavepoint _) | .call (.rollbackTo _) | .call (.release _) => False

theorem Op.ReadsOnly.settle_smartCommit {op : Op} (hop : op.ReadsOnly) (c : Controller δ) :
    (op.settle c).smartCommit = c.smartCommit := by
  cases op with
  | call k => cases k <;> rfl
  | setSmartCommit on => exact hop.elim
  | beforeExecute | preparedExecute | preparedQuery => rfl

variable [Delegate δ]

namespace Controller

variable {c : Controller δ}

/-- The delegate says, if anything, that it is in auto-commit. -/
def SaysOn (d : δ) : Prop :=
  ∀ on d', Delegate.autoCommit d = .ok on d' → on = true

theorem calm_asking (hon : SaysOn c.delegate) {next : Bool → List DelegateCall}
    (hnext : ∀ k ∈ next true, k.Calm) : ∀ k ∈ c.asking next, k.Calm := by
  refine List.forall_mem_cons.2 ⟨trivial, ?_⟩
  split
  · rename_i on d' hanswer
    rw [hon on d' hanswer]
    exact hnext
  · exact List.forall_mem_nil _

theorem calm_text (hon : SaysOn c.delegate) {k : Call} (hk : DelegateCall.Calm (.call k)) :
    ∀ l ∈ c.suspending false ++ [.call k], l.Calm := by
  intro l hl
  rcases List.mem_append.1 hl with hfront | hlast
  · unfold suspending at hfront
    split at hfront
    · exact absurd hfront List.not_mem_nil
    · exact calm_asking hon (List.forall_mem_nil _) l hfront
  · rw [List.mem_singleton.1 hlast]
    exact hk

/-- With nothing to end, a commit or a rollback switches the flag on, where it is already. -/
theorem calm_ending (hon : SaysOn c.delegate) (hsmart : c.smartCommit = true) (k : Call) :
    ∀ l ∈ c.ending k, l.Calm := by
  rw [ending, if_pos hsmart]
  exact calm_asking hon (List.forall_mem_singleton.2 trivial)

/-- **Work that only reads makes calm calls.** -/
theorem calm_script (hon : SaysOn c.delegate) (hsmart : c.smartCommit = true) {op : Op}
    (hop : op.ReadsOnly) : ∀ k ∈ c.script op, k.Calm := by
  cases op with
  | setSmartCommit on => exact hop.elim
  | beforeExecute sql always => exact hop.elim
  | preparedExecute sql => exact hop.elim
  | preparedQuery sql =>
    rw [script, show Statement.isWrite sql = false from hop]
    exact calm_text hon trivial
  | call k =>
    cases k with
    | setSavepoint name => exact hop.elim
    | setAutoCommit on =>
      rw [script, hsmart, Bool.or_true]
      split
      · exact List.forall_mem_nil _
      · exact List.forall_mem_singleton.2 trivial
    | commit => exact calm_ending hon hsmart .commit
    | rollback => exact calm_ending hon hsmart .rollback
    | rollbackTo s => exact calm_asking hon (List.forall_mem_nil _)
    | release s => exact calm_asking hon (List.forall_mem_nil _)
    | execute sql =>
      rw [script, show Statement.isWrite sql = false from hop]
      exact calm_text hon trivial
    | query sql =>
      rw [script, show Statement.isWrite sql = false from hop]
      exact calm_text hon trivial

end Controller

/-- A property of delegates in auto-commit that calm calls keep. -/
structure AtRest (P : δ → Prop) : Prop where
  saysOn {d : δ} : P d → Controller.SaysOn d
  autoCommit : Kept P Delegate.autoCommit
  setOn : Kept P (Delegate.setAutoCommit true)
  execute (sql : String) : Kept P (Delegate.execute sql)
  query (sql : String) : Kept P (Delegate.query sql)

namespace AtRest

variable {P : δ → Prop}

theorem kept_carryOut (hP : AtRest P) {k : DelegateCall} (hk : k.Calm) : Kept P k.carryOut := by
  intro d hd
  cases k with
  | autoCommit => simpa only [DelegateCall.carryOut, ends_discard] using hP.autoCommit d hd
  | close => exact hk.elim
  | call k =>
    simp only [DelegateCall.carryOut, ends_discard]
    cases k <;> simp only [Delegate.perform, ends_bind, ends_pure]
    case setAutoCommit on =>
      cases on with
      | true => exact hP.setOn d hd
      | false => exact hk.elim
    case execute sql => exact hP.execute sql d hd
    case query sql => exact hP.query sql d hd
    all_goals exact hk.elim

/-- **Under smart commit, work that only reads leaves a delegate at rest.** -/
theorem kept_perform (hP : AtRest P) {op : Op} (hop : op.ReadsOnly) :
    Kept (fun c => P c.delegate ∧ c.smartCommit = true) (Controller.perform op) := by
  rintro c ⟨hc, hsmart⟩
  have hcalm : ∀ k ∈ c.script op, Kept P k.carryOut := fun k hk =>
    hP.kept_carryOut (Controller.calm_script (hP.saysOn hc) hsmart hop k hk)
  rw [Controller.ends_perform (Q := fun c => P c.delegate ∧ c.smartCommit = true)]
  split
  · exact ⟨hc, hsmart⟩
  · refine Controller.carried_of_kept hcalm hc (fun d hd => ?_) fun _ d hd => ⟨hd, hsmart⟩
    rw [Op.settle_delegate, hop.settle_smartCommit]
    exact ⟨hd, hsmart⟩

variable [LawfulDelegate δ]

omit P in
/-- A lawful delegate in auto-commit is at rest. -/
theorem flag_on : AtRest fun d : δ => flag d = true where
  saysOn {d} hd on d' hanswer := by
    obtain ⟨hon, -⟩ := (LawfulDelegate.autoCommit d).of_ok hanswer
    rw [hon, hd]
  autoCommit d hd :=
    (LawfulDelegate.autoCommit d).mono (fun _ _ h => h.2.trans hd) fun _ _ h => h.trans hd
  setOn d hd := (LawfulDelegate.setAutoCommit true d).mono (fun _ _ h => h) fun _ _ h => h.trans hd
  execute sql := keeps_iff_kept.1 (LawfulDelegate.execute sql) true
  query sql := keeps_iff_kept.1 (LawfulDelegate.query sql) true

end AtRest

namespace Watched

variable [LawfulDelegate δ]

/-- A delegate in auto-commit, of which all calls have been calm and have met it there. -/
structure AtEase (w : Watched δ) : Prop where
  flag : flag w.delegate = true
  log : ∀ x ∈ w.log, x.flag = true ∧ x.call.Calm

theorem kept_watch (call : DelegateCall) (hcall : call.Calm) {α : Type} {act : Action δ α}
    (h : Kept (fun d => LawfulDelegate.flag d = true) act) : Kept AtEase (watch call act) := by
  intro w hw
  have hlog : ∀ failure, ∀ x ∈ w.log ++ [⟨call, LawfulDelegate.flag w.delegate, failure⟩],
      x.flag = true ∧ x.call.Calm := by
    intro failure x hx
    rcases List.mem_append.1 hx with hold | hlast
    · exact hw.log x hold
    · rw [List.mem_singleton.1 hlast]
      exact ⟨hw.flag, hcall⟩
  rw [ends_watch]
  exact (h w.delegate hw.flag).mono (fun _ _ hd => ⟨hd, hlog none⟩) fun e _ hd => ⟨hd, hlog (some e)⟩

/-- The delegate and its log. -/
theorem atRest : AtRest (AtEase (δ := δ)) where
  saysOn h := AtRest.flag_on.saysOn h.flag
  autoCommit := kept_watch .autoCommit trivial AtRest.flag_on.autoCommit
  setOn := kept_watch (.call (.setAutoCommit true)) trivial AtRest.flag_on.setOn
  execute sql := kept_watch (.call (.execute sql)) trivial (AtRest.flag_on.execute sql)
  query sql := kept_watch (.call (.query sql)) trivial (AtRest.flag_on.query sql)

end Watched

namespace Journaled

/-- A connection in auto-commit without a transaction, which has sent nothing but the caller's texts
since its journal was `old`. -/
structure TextsSince (old : List Sending) (j : Journaled σ) : Prop where
  autoCommit : j.connection.autoCommit = true
  notIn : j.connection.inTransaction = false
  journal : ∃ texts, j.journal = old ++ texts ∧ ∀ x ∈ texts, x.request.isText = true

variable {old : List Sending}

theorem TextsSince.snoc {j : Journaled σ} (h : TextsSince old j) {x : Sending}
    (hx : x.request.isText = true) (s : σ) :
    TextsSince old ⟨{ j.connection with database := s }, j.journal ++ [x]⟩ := by
  obtain ⟨hon, hnot, texts, hjournal, htexts⟩ := h
  refine ⟨hon, hnot, texts ++ [x], by rw [hjournal, List.append_assoc], ?_⟩
  exact List.forall_mem_append.2 ⟨htexts, List.forall_mem_singleton.2 hx⟩

variable [Database σ]

/-- A text is passed on as it is: nothing is begun in front of it. -/
theorem kept_text_on {α : Type} (sql : String) (act : EStateM StatementError σ α) :
    Kept (TextsSince old) (do ensureTransaction; note (.statement sql) act) := by
  intro j hj
  have hnote : ∀ done s, TextsSince old ⟨{ j.connection with database := s }, j.journal ++
      [⟨.statement sql, j.connection.autoCommit, j.connection.inTransaction, done⟩]⟩ :=
    fun _ s => hj.snoc rfl s
  simp only [ensureTransaction, ends_bind, ends_get, ends_ite, ends_pure, hj.autoCommit, Bool.not_true,
    Bool.false_and, Bool.false_eq_true, if_false, ends_note, Connection.ends_onDatabase]
  cases act j.connection.database <;> simpa only [hj.autoCommit] using hnote _ _

theorem atRest : AtRest (TextsSince (σ := σ) old) where
  saysOn {j} hj on j' hanswer := by
    cases hanswer
    exact hj.autoCommit
  autoCommit _ hj := hj
  setOn j hj := by
    simp only [Delegate.setAutoCommit, endTransaction, ends_bind, ends_get, ends_ite, ends_pure,
      if_true, hj.notIn, Bool.false_eq_true, if_false, ends_quietly, ends_modify]
    exact ⟨rfl, rfl, hj.journal⟩
  execute sql := kept_text_on sql _
  query sql := kept_text_on sql _

end Journaled

/-- **Work that only reads never leaves auto-commit.** Under smart commit, over a delegate in
auto-commit, take work of any length that only reads, in either mode of the caller's, whatever of it
fails. The delegate is in auto-commit behind each operation; every call on it is calm, so that none is
a commit, a rollback or about a savepoint, and finds it in auto-commit. A connection at any point of
its life sends nothing but the caller's texts, and so no `BEGIN` of its own. -/
theorem read_only_work_stays [LawfulDelegate δ] {c : Controller δ} (hsmart : c.smartCommit = true)
    (hon : flag c.delegate = true) {ops : List Op} (hops : ∀ op ∈ ops, op.ReadsOnly) :
    (∀ x ∈ trace Controller.perform ops c, flag x.2.delegate = true) ∧
      (∀ x ∈ (run Controller.perform ops c.watch).2.delegate.log, x.flag = true ∧ x.call.Calm) ∧
      ∀ {σ : Type} [Database σ] {j : Journaled σ} {w : Controller (Journaled σ)},
        Arises Journaled.IsFresh j → Reachable j w → w.smartCommit = true →
          w.delegate.connection.autoCommit = true →
            Journaled.TextsSince w.delegate.journal (run Controller.perform ops w).2.delegate := by
  refine ⟨fun x hx => ?_, ?_, ?_⟩
  · have hstay := kept_trace (fun op hop => AtRest.flag_on.kept_perform (hops op hop)) ⟨hon, hsmart⟩
    exact (hstay x hx).1
  · have hstart : Watched.AtEase c.watch.delegate := ⟨hon, List.forall_mem_nil _⟩
    exact (kept_run (fun op hop => Watched.atRest.kept_perform (hops op hop)) ⟨hstart, hsmart⟩).1.log
  · intro σ _ j w hj hw hsmart hon
    -- an orderly connection in auto-commit has no transaction open
    have hbracketed := Bracketed.invariant.reachable
      (Bracketed.invariant.arises (fun _ => Bracketed.of_isFresh) hj) hw
    have hnot : w.delegate.connection.inTransaction = false := by
      by_contra hopen
      have hoff := hbracketed.orderly (by simpa using hopen)
      rw [hon] at hoff
      cases hoff
    have hstart : Journaled.TextsSince w.delegate.journal w.delegate :=
      ⟨hon, hnot, [], (List.append_nil _).symm, List.forall_mem_nil _⟩
    exact (kept_run (fun op hop => Journaled.atRest.kept_perform (hops op hop)) ⟨hstart, hsmart⟩).1

/-- A query and a text that cannot be read, with both ends of a transaction and a savepoint from
nowhere, over a connection that has just been opened. -/
theorem query_and_garbage_stay :
    let ops : List Op := [.call (.setAutoCommit false), .call (.query "SELECT 1"), .call .commit,
      .preparedQuery "DELETE ' FROM", .call (.rollbackTo ⟨1, none⟩), .call (.execute "VACUUM"),
      .call .rollback, .call (.release ⟨1, none⟩), .call (.setAutoCommit true)]
    let j : Journaled Store := ⟨{ database := {}, kind := .sqlite }, []⟩
    let c : Controller (Connection Store) := ⟨j.connection, true, true⟩
    let w : Controller (Journaled Store) := ⟨j, true, true⟩
    (∀ op ∈ ops, op.ReadsOnly) ∧ Reachable j w ∧
      (run Controller.perform ops w).2.delegate.journal.map (·.request.text) =
        ["SELECT 1", "DELETE ' FROM", "VACUUM"] ∧
      Journaled.TextsSince [] (run Controller.perform ops w).2.delegate ∧
      ∀ x ∈ trace Controller.perform ops c, x.2.delegate.autoCommit = true := by
  intro ops j c w
  have hops : ∀ op ∈ ops, op.ReadsOnly := by
    simp only [ops, List.forall_mem_cons, Op.ReadsOnly, true_and]
    exact ⟨by decide +kernel, by decide +kernel, by decide +kernel, nofun⟩
  have hj : Arises Journaled.IsFresh j := .fresh ⟨⟨rfl, rfl, rfl⟩, rfl⟩
  have hw : Reachable j w := .wrap rfl
  obtain ⟨hstay, -, htexts⟩ := read_only_work_stays (c := c) rfl rfl hops
  exact ⟨hops, hw, by decide +kernel, htexts hj hw rfl rfl, hstay⟩

end DeferredTx.Session
