import DeferredTx.Proofs.Session.Twins
import DeferredTx.Proofs.Store.Determined

/-!
# Smart commit is transparent

With smart commit a transaction begins with the first write; without it, with the first statement. It
makes no difference to the caller.

* `Op.Clear`, `Disciplined`: operations and runs for which smart commit makes no difference.
* `Twin`: a controller with smart commit, and the connection that stands for one without.
* `Twin.perform`: every operation has the same answer on both, and they are twins behind it.
* `smart_commit_transparent`: **the caller sees the same answers and the same content.**
-/

namespace DeferredTx.Session

open Transactional (content phase)
open Dependable (memory)

variable {σ κ μ τ α : Type}

variable [Database σ]

/-- A savepoint takes the connection out of auto-commit first. -/
theorem Controller.setSavepoint_of_off {w : Controller (Connection σ)} (hoff : w.autoCommit = false)
    (name : Option String) :
    Controller.setSavepoint name w = Controller.onDelegate (Delegate.setSavepoint name)
      { w with delegate := { w.delegate with autoCommit := false } } := by
  obtain ⟨⟨database, kind, on, inTransaction, savepoints⟩, caller, smart⟩ := w
  obtain rfl : caller = false := hoff
  cases on <;> rfl

/-- Under smart commit the end of a transaction is that of the connection, which is in auto-commit
afterwards. -/
theorem Controller.endTransaction_of_connection {w : Controller (Connection σ)} {c' : Connection σ}
    {r : Request} (hoff : w.autoCommit = false) (hsmart : w.smartCommit = true)
    (horderly : w.delegate.Orderly) (call : TransactionCall)
    (hc' : Connection.endTransaction r w.delegate = .ok () c') (hnot : c'.inTransaction = false) :
    Controller.endTransaction call (do
        Connection.refuseInAutoCommit call
        Connection.endTransaction r) w =
      .ok () { w with delegate := { c' with autoCommit := true } } := by
  -- with nothing to end any more, the flag is set
  have hset : Ends (setDelegateAutoCommit true) { w with delegate := c' }
      (fun _ w' => w' = { w with delegate := { c' with autoCommit := true } }) fun _ _ => False := by
    simp only [setDelegateAutoCommit, ends_onDelegate]
    unfold Ends
    rw [Connection.setAutoCommit_on hnot]
  have hends : Ends (Controller.endTransaction call do
      Connection.refuseInAutoCommit call
      Connection.endTransaction r) w
      (fun _ w' => w' = { w with delegate := { c' with autoCommit := true } }) fun _ _ => False := by
    simp only [Controller.endTransaction, ends_bind, ends_refuseInAutoCommit, ends_get, ends_ite,
      ends_delegateAutoCommit_connection]
    rw [if_neg (by simp [hoff]), if_pos hsmart]
    cases hon : w.delegate.autoCommit with
    | true =>
      -- in auto-commit there is nothing to end
      have hclosed : w.delegate.inTransaction = false := by
        cases hin : w.delegate.inTransaction with
        | false => rfl
        | true => exact absurd (horderly hin) (by simp [hon])
      have hsame : c' = w.delegate := by
        rw [Connection.endTransaction_of_ended hclosed] at hc'
        cases hc'
        rfl
      subst hsame
      exact hset
    | false =>
      have hact : Ends (Connection.endTransaction r) w.delegate (fun _ c₁ => c₁ = c')
          fun _ _ => False := by
        unfold Ends
        rw [hc']
      simp only [Bool.not_false, if_true, ends_onDelegate]
      rw [ends_bind, Connection.ends_refuseInAutoCommit, if_neg (by simp [hon])]
      exact hact.mono (fun _ c₁ hc₁ => hc₁ ▸ hset) fun _ _ hno => hno
  obtain ⟨⟨⟩, w', hw', rfl⟩ := hends.exists_ok
  exact hw'

variable [Dependable σ κ μ τ]

variable (σ) in
/-- The operations for which smart commit makes no difference: the ends of a transaction, savepoints,
and determined texts that are taken for writes, or do not change the content, or are executed as
prepared. -/
def Op.Clear : Op → Prop
  | .call (.execute sql) | .call (.query sql) | .preparedQuery sql =>
    Determined σ sql ∧ (Statement.isWrite sql = true ∨ ReadOnly σ sql)
  | .preparedExecute sql => Determined σ sql
  | .call .commit | .call .rollback => True
  | .call (.setSavepoint _) | .call (.rollbackTo _) | .call (.release _) => True
  | .call (.setAutoCommit _) | .setSmartCommit _ | .beforeExecute .. => False

/-- Such an operation stands for a call. -/
theorem Op.Clear.exists_call {op : Op} (h : op.Clear σ) : ∃ k, op.call? = some k := by
  cases op with
  | call k => exact ⟨k, rfl⟩
  | preparedExecute sql => exact ⟨.execute sql, rfl⟩
  | preparedQuery sql => exact ⟨.query sql, rfl⟩
  | setSmartCommit on => exact h.elim
  | beforeExecute sql always => exact h.elim

/-- The savepoint that an operation goes back to or releases. -/
def Op.savepoint? : Op → Option Savepoint
  | .call (.rollbackTo s) | .call (.release s) => some s
  | _ => none

/-- The savepoints that have been made since the last successful commit or rollback, behind an
operation and its answer. -/
def Op.live (op : Op) (answer : Except DbError Reply) (live : List Savepoint) : List Savepoint :=
  match op, answer with
  | .call .commit, .ok _ | .call .rollback, .ok _ => []
  | .call (.setSavepoint _), .ok (.savepoint s) => s :: live
  | _, _ => live

/-- Operations of which each goes back to or releases only what has been made since the last successful
commit or rollback. -/
def Disciplined : List Savepoint → List Op → Controller (Connection σ) → Prop
  | _, [], _ => True
  | live, op :: rest, w =>
    (∀ s, op.savepoint? = some s → s ∈ live) ∧
      Disciplined (op.live (answerOf (Controller.perform op w)) live) rest
        (stateOf (Controller.perform op w))

/-- The controller `w` has smart commit on and auto-commit off, and its connection and `d` are twins.
There are savepoints to go back to only in a transaction that is open on both. -/
structure Twin (live : List Savepoint) (w : Controller (Connection σ)) (d : Connection σ) : Prop where
  caller : w.autoCommit = false
  smart : w.smartCommit = true
  twins : ∃ S, Connection.Twins S w.delegate d
  opened : live ≠ [] → w.delegate.inTransaction = true
  named : ∀ s ∈ live, Savepoint.checkName s.sqlName = .ok ()

/-- The results of an operation on both have the same answer, and twins behind it, with the savepoints
that are live by this answer. -/
structure SameAnswer (op : Op) (live : List Savepoint)
    (r : EStateM.Result DbError (Controller (Connection σ)) Reply)
    (r' : EStateM.Result DbError (Connection σ) Reply) : Prop where
  answer : answerOf r = answerOf r'
  twin : Twin (op.live (answerOf r) live) (stateOf r) (stateOf r')

namespace SameAnswer

variable {op : Op} {live : List Savepoint} {w' : Controller (Connection σ)} {d' : Connection σ}
  {r : EStateM.Result DbError (Controller (Connection σ)) Reply}
  {r' : EStateM.Result DbError (Connection σ) Reply}

/-- An operation that makes no savepoint and forgets none. -/
theorem of_agree (h : Agree (Twin live) r r') (hlive : ∀ answer, op.live answer live = live) :
    SameAnswer op live r r' := by
  refine ⟨h.answer, ?_⟩
  rw [hlive]
  exact h.state

theorem of_ok {a : Reply} (hr : r = .ok a w') (hr' : r' = .ok a d')
    (h : Twin (op.live (.ok a) live) w' d') : SameAnswer op live r r' := by
  subst hr hr'
  exact ⟨rfl, h⟩

theorem of_error {e : DbError} (hr : r = .error e w') (hr' : r' = .error e d')
    (h : Twin (op.live (.error e) live) w' d') : SameAnswer op live r r' := by
  subst hr hr'
  exact ⟨rfl, h⟩

end SameAnswer

namespace Twin

open Connection (Twins)

variable {live : List Savepoint} {w : Controller (Connection σ)} {c d : Connection σ}

theorem delegate (h : Twin live w d) {S : κ} {d' : Connection σ} (htwins : Twins S c d')
    (hin : w.delegate.inTransaction = true → c.inTransaction = true) :
    Twin live { w with delegate := c } d' :=
  ⟨h.caller, h.smart, ⟨S, htwins⟩, fun hlive => hin (h.opened hlive), h.named⟩

theorem onDelegate (h : Twin live w d) {S : κ} {act act' : Action (Connection σ) α}
    (hagree : Agree (fun c' d' => Twins S c' d' ∧
      (w.delegate.inTransaction = true → c'.inTransaction = true)) (act w.delegate) (act' d)) :
    Agree (Twin live) (Controller.onDelegate act w) (act' d) := by
  unfold Controller.onDelegate
  rcases hagree.outcome with ⟨a, c', d', hc, hd, hrel⟩ | ⟨e, c', d', hc, hd, hrel⟩
  · rw [hc, hd]
    exact .ok a (h.delegate hrel.1 hrel.2)
  · rw [hc, hd]
    exact .error e (h.delegate hrel.1 hrel.2)

/-- The connection below is taken out of auto-commit. -/
theorem suspended (h : Twin live w d) :
    Twin live { w with delegate := { w.delegate with autoCommit := false } } d := by
  obtain ⟨S, htwins⟩ := h.twins
  exact h.delegate { htwins with smart := htwins.smart.setOff } id

/-- A preparation succeeds; if there was need for one, the flag is off. -/
theorem ends_beforeExecute (h : Twin live w d) (sql : String) (always : Bool) :
    Ends (Controller.beforeExecute sql always) w
      (fun _ w' => Twin live w' d ∧
        ((always || Statement.isWrite sql) = true → w'.delegate.autoCommit = false))
      fun _ _ => False := by
  simp only [Controller.beforeExecute, ends_bind, ends_get, ends_ite, ends_pure,
    Controller.ends_delegateAutoCommit_connection, Controller.ends_suspend_connection]
  rw [if_pos (by simp [h.caller])]
  generalize (always || Statement.isWrite sql) = need
  split
  · split
    · exact ⟨h.suspended, fun _ => trivial⟩
    · exact ⟨h, fun hneed => absurd hneed ‹_›⟩
  · exact ⟨h, fun _ => by simpa using ‹¬w.delegate.autoCommit = true›⟩

/-- A text that is passed on behind its preparation. -/
theorem forward (h : Twin live w d) (sql : String) (always : Bool) {act : EStateM StatementError σ α}
    (hact : Settled act)
    (hsafe : (always || Statement.isWrite sql) = true ∨ ∀ s, content (stateOf (act s)) = content s) :
    Agree (Twin live)
      ((do Controller.beforeExecute sql always
           Controller.onDelegate (do Connection.ensureTransaction; Connection.onDatabase act)) w)
      ((do Connection.ensureTransaction; Connection.onDatabase act : Action (Connection σ) α) d) := by
  obtain ⟨⟨⟩, w₁, hw₁, h₁, hoff⟩ := (h.ends_beforeExecute sql always).exists_ok
  obtain ⟨S, htwins⟩ := h₁.twins
  obtain ⟨⟨⟩, d₁, hd₁, htwins₁, hopen⟩ := htwins.ends_plain_ensureTransaction.exists_ok
  obtain ⟨⟨⟩, c₁, hc₁, htwins₂, hopen'⟩ := (htwins₁.ends_smart_ensureTransaction hopen).exists_ok
  rw [bind_of_ok hw₁]
  refine h₁.onDelegate (S := S) ?_
  rw [bind_of_ok hc₁, bind_of_ok hd₁]
  have hsafe' : c₁.inTransaction = true ∨ ∀ s, content (stateOf (act s)) = content s :=
    hsafe.imp (fun hneed => hopen' (.inl (hoff hneed))) id
  refine (htwins₂.agree_text hopen hact hsafe').mono fun c' d' hrel => ⟨hrel.1, fun hin => ?_⟩
  exact hrel.2.trans (hopen' (.inr hin))

/-- A request about a savepoint that is live. -/
theorem agree_mark (h : Twin live w d) {s : Savepoint} (hs : s ∈ live) {r : Request}
    (hr : Savepoint.checkName s.sqlName = .ok () → r.Proper) (hm : r.isMark = true) :
    ∃ S, Agree (fun c' d' => Twins S c' d' ∧ (w.delegate.inTransaction = true → c'.inTransaction = true))
      (discard (Connection.send r) w.delegate) (discard (Connection.send r) d) := by
  have hin : w.delegate.inTransaction = true := h.opened (List.ne_nil_of_mem hs)
  obtain ⟨S, htwins⟩ := h.twins
  refine ⟨S, agree_discard ?_⟩
  exact (htwins.agree_mark hin (hr (h.named s hs)) hm).mono fun c' d' hrel =>
    ⟨hrel.1, fun _ => hrel.2.trans hin⟩

/-- A connection that has a live savepoint has its flag off. -/
theorem off_of_live (h : Twin live w d) {s : Savepoint} (hs : s ∈ live) :
    w.delegate.autoCommit = false := by
  obtain ⟨S, htwins⟩ := h.twins
  exact htwins.smart.off_of_open (h.opened (List.ne_nil_of_mem hs))

theorem off (h : Twin live w d) : d.autoCommit = false := by
  obtain ⟨S, htwins⟩ := h.twins
  exact htwins.off

theorem rollbackTo (h : Twin live w d) {s : Savepoint} (hs : s ∈ live) :
    Agree (Twin live) (Controller.rollbackTo s w) (Delegate.rollbackTo s d) := by
  have hoff := h.off_of_live hs
  obtain ⟨S, hagree⟩ := h.agree_mark hs (r := .rollbackTo s.sqlName) id rfl
  rw [Controller.rollbackTo, Controller.refuse_bind, if_neg (by simp [h.caller]),
    Controller.unlessAutoCommit_of_off hoff]
  refine h.onDelegate (S := S) ?_
  simp only [Delegate.rollbackTo]
  rw [Connection.refuse_bind, Connection.refuse_bind, if_neg (by simp [hoff]), if_neg (by simp [h.off])]
  exact hagree

theorem release (h : Twin live w d) {s : Savepoint} (hs : s ∈ live) :
    Agree (Twin live) (Controller.release s w) (Delegate.release s d) := by
  obtain ⟨S, hagree⟩ := h.agree_mark hs (r := .release s.sqlName) id rfl
  rw [Controller.release, Controller.unlessAutoCommit_of_off (h.off_of_live hs)]
  exact h.onDelegate (S := S) hagree

/-- A commit and a rollback succeed on both, with or without something to end. -/
theorem endTransaction (h : Twin live w d) (call : TransactionCall) {r : Request} (after : κ → κ → κ)
    (hr : ∀ (S : κ) (s : σ), phase s = .begun S → ∃ n s', Database.execute r s = .ok n s' ∧
      content s' = after S (content s) ∧ phase s' = .idle ∧ memory s' = memory s)
    (hnone : ∀ S, after S S = S) :
    ∃ w' d', Controller.endTransaction call (do
        Connection.refuseInAutoCommit call
        Connection.endTransaction r) w = .ok () w' ∧
      (do Connection.refuseInAutoCommit call
          Connection.endTransaction r : Action (Connection σ) Unit) d = .ok () d' ∧
      Twin [] w' d' := by
  obtain ⟨S, htwins⟩ := h.twins
  obtain ⟨c', d', hc', hd', htwins', hended, hflag⟩ :=
    htwins.endTransaction (r := r) (after S (content w.delegate.database))
      (fun s hphase hcontent => by rw [← hcontent]; exact hr S s hphase)
      (fun hcontent => by rw [hcontent]; exact hnone S)
  have horderly : w.delegate.Orderly := htwins.smart.off_of_open
  have hw' := Controller.endTransaction_of_connection h.caller h.smart horderly call hc' hended.notIn
  refine ⟨_, d', hw', ?_, h.caller, h.smart, ⟨_, { htwins' with smart := ?_ }⟩, ?_, ?_⟩
  · rw [Connection.refuse_bind, if_neg (by simp [h.off])]
    exact hd'
  · exact .idle hended.notIn hended.phase hended.content
  · exact fun hne => absurd rfl hne
  · exact List.forall_mem_nil _

/-- A savepoint that is made is live, and named. -/
theorem setSavepoint (h : Twin live w d) (name : Option String) :
    (∃ s w' d', Controller.setSavepoint name w = .ok s w' ∧ Delegate.setSavepoint name d = .ok s d' ∧
        Twin (s :: live) w' d') ∨
      ∃ e w' d', Controller.setSavepoint name w = .error e w' ∧
        Delegate.setSavepoint name d = .error e d' ∧ Twin live w' d' := by
  have h₁ := h.suspended
  obtain ⟨S, htwins⟩ := h₁.twins
  obtain ⟨c', d', htwins', hcases⟩ := htwins.setSavepoint rfl name
  rw [Controller.setSavepoint_of_off h.caller]
  simp only [Controller.onDelegate]
  rcases hcases with ⟨s, hc', hd', hin, hname⟩ | ⟨e, hc', hd', hin⟩
  · refine .inl ⟨s, { w with delegate := c' }, d', ?_, hd', ?_⟩
    · rw [hc']
    · exact ⟨h.caller, h.smart, ⟨S, htwins'⟩, fun _ => hin, List.forall_mem_cons.2 ⟨hname, h.named⟩⟩
  · refine .inr ⟨e, { w with delegate := c' }, d', ?_, hd', ?_⟩
    · rw [hc']
    · exact h.delegate htwins' hin

theorem commit (h : Twin live w d) :
    ∃ w' d', Controller.commit w = .ok () w' ∧ Delegate.commit d = .ok () d' ∧ Twin [] w' d' := by
  refine h.endTransaction .commit (fun _ now => now) (fun S s hphase => ?_) fun _ => rfl
  obtain ⟨n, s', hs', hmemory⟩ := Dependable.commit_ok hphase
  obtain ⟨hcontent, hidle⟩ := Transactional.commit hphase hs'
  exact ⟨n, s', hs', hcontent, hidle, hmemory⟩

theorem rollback (h : Twin live w d) :
    ∃ w' d', Controller.rollback w = .ok () w' ∧ Delegate.rollback d = .ok () d' ∧ Twin [] w' d' := by
  refine h.endTransaction .rollback (fun before _ => before) (fun S s hphase => ?_) fun _ => rfl
  obtain ⟨n, s', hs', hmemory⟩ := Dependable.rollback_ok hphase
  obtain ⟨hcontent, hidle⟩ := Transactional.rollback hphase hs'
  exact ⟨n, s', hs', hcontent, hidle, hmemory⟩

/-- **Every operation has the same answer on both**, and they are twins behind it. -/
theorem perform (h : Twin live w d) {op : Op} {k : Call} (hk : op.call? = some k) (hop : op.Clear σ)
    (hlive : ∀ s, op.savepoint? = some s → s ∈ live) :
    SameAnswer op live (Controller.perform op w) (Delegate.perform k d) := by
  cases op with
  | setSmartCommit on => cases hk
  | beforeExecute sql always => cases hk
  | preparedExecute sql =>
    cases hk
    have hexecute := h.forward sql true hop.execute (.inl rfl)
    exact .of_agree (hexecute.bind_pure _) fun _ => rfl
  | preparedQuery sql =>
    cases hk
    obtain ⟨hdetermined, hsafe⟩ := hop
    have hquery := h.forward sql false hdetermined.query (hsafe.imp id fun hr s => (hr s).2)
    exact .of_agree (hquery.bind_pure _) fun _ => rfl
  | call k' =>
    cases hk
    cases k with
    | setAutoCommit on => exact hop.elim
    | commit =>
      obtain ⟨w', d', hw', hd', h'⟩ := h.commit
      exact .of_ok (bind_of_ok hw') (bind_of_ok hd') h'
    | rollback =>
      obtain ⟨w', d', hw', hd', h'⟩ := h.rollback
      exact .of_ok (bind_of_ok hw') (bind_of_ok hd') h'
    | setSavepoint name =>
      rcases h.setSavepoint name with ⟨s, w', d', hw', hd', h'⟩ | ⟨e, w', d', hw', hd', h'⟩
      · exact .of_ok (bind_of_ok hw') (bind_of_ok hd') h'
      · exact .of_error (bind_of_error hw') (bind_of_error hd') h'
    | rollbackTo s => exact .of_agree ((h.rollbackTo (hlive s rfl)).bind_pure _) fun _ => rfl
    | release s => exact .of_agree ((h.release (hlive s rfl)).bind_pure _) fun _ => rfl
    | execute sql =>
      obtain ⟨hdetermined, hsafe⟩ := hop
      have hexecute := h.forward sql false hdetermined.execute (hsafe.imp id fun hr s => (hr s).1)
      exact .of_agree (hexecute.bind_pure _) fun _ => rfl
    | query sql =>
      obtain ⟨hdetermined, hsafe⟩ := hop
      have hquery := h.forward sql false hdetermined.query (hsafe.imp id fun hr s => (hr s).2)
      exact .of_agree (hquery.bind_pure _) fun _ => rfl

/-- So do runs of any length, with the content at every step. The controller `p` has smart commit off
and stands for the connection `d`. -/
theorem trace : ∀ (ops : List Op) {live : List Savepoint} {w p : Controller (Connection σ)}
    {d : Connection σ}, Twin live w d → PassThrough p d → (∀ op ∈ ops, op.Clear σ) →
    Disciplined live ops p →
    (Session.trace Controller.perform ops w).map (fun x => (x.1, content x.2.delegate.database)) =
      (Session.trace Controller.perform ops p).map fun x => (x.1, content x.2.delegate.database)
  | [], _, _, _, _, _, _, _, _ => rfl
  | op :: ops, live, w, p, d, h, hp, hops, hdisciplined => by
    obtain ⟨hlive, hrest⟩ := hdisciplined
    have hop : op.Clear σ := hops op List.mem_cons_self
    have hops' : ∀ op' ∈ ops, op'.Clear σ := fun op' hm => hops op' (List.mem_cons_of_mem _ hm)
    obtain ⟨k, hk⟩ := hop.exists_call
    obtain ⟨hanswer, h'⟩ := h.perform hk hop hlive
    have hagree := hp.perform hk fun _ _ => h.off
    -- both have the answer of the connection that the plain controller stands for
    have hsame : answerOf (Controller.perform op w) = answerOf (Controller.perform op p) :=
      hanswer.trans hagree.answer.symm
    obtain ⟨S, htwins⟩ := h'.twins
    have hcontent : content (stateOf (Controller.perform op w)).delegate.database =
        content (stateOf (Controller.perform op p)).delegate.database := by
      rw [hagree.state.delegate]
      exact htwins.sameContent
    rw [hsame] at h'
    simp only [Session.trace, List.map_cons, List.cons.injEq, Prod.mk.injEq]
    exact ⟨⟨hsame, hcontent⟩, trace ops h' hagree.state hops' hrest⟩

end Twin

/-- A controller as it is put over a connection with smart commit as asked for and auto-commit off. -/
def Controller.withoutAutoCommit (smart : Bool) (c : Connection σ) :
    Except DbError (Controller (Connection σ)) :=
  match Controller.wrap c with
  | .ok w => .ok (run Controller.perform [.setSmartCommit smart, .call (.setAutoCommit false)] w).2
  | .error e => .error e

omit [Dependable σ κ μ τ] in
theorem Controller.withoutAutoCommit_of_fresh (smart : Bool) {c : Connection σ} (hc : c.IsFresh) :
    Controller.withoutAutoCommit smart c =
      .ok ⟨{ c with autoCommit := smart }, false, smart⟩ := by
  obtain ⟨database, kind, on, inTransaction, savepoints⟩ := c
  obtain rfl : on = true := hc.autoCommit
  obtain rfl : inTransaction = false := hc.inTransaction
  cases smart <;> rfl

/-- **Smart commit is transparent.** Take two fresh connections over databases with the same content
and no transaction open, and put a controller over each, with auto-commit off: one with smart commit
on, one with it off. Over a database that can be depended on, operations for which it makes no
difference, of any length and in any order, have the same answers on both, and leave the same content
behind at every step. -/
theorem smart_commit_transparent {c d : Connection σ} (hc : c.IsFresh) (hd : d.IsFresh)
    (hidle : phase c.database = .idle) (hidle' : phase d.database = .idle)
    (hcontent : content c.database = content d.database)
    (hmemory : memory c.database = memory d.database) :
    ∃ smart plain : Controller (Connection σ), Controller.withoutAutoCommit true c = .ok smart ∧
      Controller.withoutAutoCommit false d = .ok plain ∧
      ∀ ops : List Op, (∀ op ∈ ops, op.Clear σ) → Disciplined [] ops plain →
        (trace Controller.perform ops smart).map (fun x => (x.1, content x.2.delegate.database)) =
          (trace Controller.perform ops plain).map
            fun x => (x.1, content x.2.delegate.database) := by
  refine ⟨_, _, Controller.withoutAutoCommit_of_fresh true hc,
    Controller.withoutAutoCommit_of_fresh false hd, fun ops hops hdisciplined => ?_⟩
  have htwins : Connection.Twins (content c.database) { c with autoCommit := true }
      { d with autoCommit := false } := by
    refine .of_ended ⟨rfl, hidle, hc.inTransaction⟩ ⟨hcontent.symm, hidle', hd.inTransaction⟩ hmemory ?_ rfl
    exact hc.savepoints.trans hd.savepoints.symm
  have htwin : Twin [] (⟨{ c with autoCommit := true }, false, true⟩ : Controller (Connection σ))
      { d with autoCommit := false } :=
    ⟨rfl, rfl, ⟨_, htwins⟩, fun hne => absurd rfl hne, nofun⟩
  have hpass : PassThrough (⟨{ d with autoCommit := false }, false, false⟩ : Controller (Connection σ))
      { d with autoCommit := false } := ⟨rfl, rfl, rfl, fun _ => rfl⟩
  exact Twin.trace ops htwin hpass hops hdisciplined

/-- Reading before and behind a table that is created, filled and emptied again over an empty store. -/
theorem reading_and_writing_transparent :
    let c : Connection Store := { database := {}, kind := .sqlite }
    let ops : List Op := [.call (.query "SELECT a FROM t"), .preparedExecute "CREATE TABLE t (a INTEGER)",
      .call .commit, .call (.query "SELECT a FROM t"), .call (.setSavepoint none),
      .call (.execute "INSERT INTO t VALUES (1)"), .call (.rollbackTo ⟨1, none⟩), .call .rollback]
    c.IsFresh ∧ phase c.database = .idle ∧ (∀ op ∈ ops, op.Clear Store) ∧
      ∃ smart plain, Controller.withoutAutoCommit true c = .ok smart ∧
        Controller.withoutAutoCommit false c = .ok plain ∧ Disciplined [] ops plain ∧
        (trace Controller.perform ops smart).map (fun x => (x.1, content x.2.delegate.database)) =
          (trace Controller.perform ops plain).map
            fun x => (x.1, content x.2.delegate.database) := by
  intro c ops
  have hc : c.IsFresh := ⟨rfl, rfl, rfl⟩
  have hread : Op.Clear Store (.call (.query "SELECT a FROM t")) :=
    ⟨Store.determined (by decide +kernel), .inr (Store.readOnly (by decide +kernel))⟩
  have htable : Op.Clear Store (.preparedExecute "CREATE TABLE t (a INTEGER)") :=
    Store.determined (by decide +kernel)
  have hrow : Op.Clear Store (.call (.execute "INSERT INTO t VALUES (1)")) :=
    ⟨Store.determined (by decide +kernel), .inl (by decide +kernel)⟩
  have hops : ∀ op ∈ ops, op.Clear Store := by
    simp only [ops, List.forall_mem_cons]
    exact ⟨hread, htable, trivial, hread, trivial, hrow, trivial, trivial, nofun⟩
  obtain ⟨smart, plain, hsmart, hplain, hsame⟩ := smart_commit_transparent hc hc rfl rfl rfl rfl
  have hdisciplined : Disciplined [] ops plain := by
    rw [Controller.withoutAutoCommit_of_fresh false hc] at hplain
    cases hplain
    refine ⟨nofun, nofun, nofun, nofun, nofun, nofun, fun s hs => ?_, nofun, trivial⟩
    obtain rfl := Option.some.inj hs
    decide +kernel
  exact ⟨hc, rfl, hops, smart, plain, hsmart, hplain, hdisciplined, hsame ops hops hdisciplined⟩

end DeferredTx.Session
