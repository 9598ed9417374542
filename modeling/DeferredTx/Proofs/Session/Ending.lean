import DeferredTx.Proofs.Session.Failure
import DeferredTx.Proofs.Session.PassThrough
import DeferredTx.Proofs.Session.Rollback

/-!
# The ends of a transaction

A commit and a rollback differ in the word that they send. Everything else about them is the same: a
controller asks for the flag, passes the call on, and switches the flag on again.

* `Ending`: the two ends, with what they are called on every level.
* `Controller.Strands`: the last of these calls fails, behind an end that has taken effect.
* `failed_end_leaves_pending`: **an end that fails has changed nothing**, unless it strands.
* `Controller.ends_ending_connection`: an end over a connection, in closed form.
* `end_sends_one_text`: **what an end sends, and what it leaves behind**, over any database.
-/

namespace DeferredTx.Session

variable {δ σ : Type}

/-- The ends of a transaction. -/
inductive Ending where
  | commit
  | rollback
  deriving DecidableEq, Repr

namespace Ending

/-- The call that a caller makes. -/
def call : Ending → Call
  | .commit => .commit
  | .rollback => .rollback

/-- What the call is refused as. -/
def transactionCall : Ending → TransactionCall
  | .commit => .commit
  | .rollback => .rollback

/-- What a connection sends to its database. -/
def request : Ending → Request
  | .commit => .commit
  | .rollback => .rollback

/-- The method of a recorder. -/
def method : Ending → Recorder.Method
  | .commit => .commit
  | .rollback => .rollback

/-- What a recorder writes down. -/
def event : Ending → Recorder.Event
  | .commit => .commit
  | .rollback => .rollback

/-- What a delegate does. -/
def act [Delegate δ] : Ending → Action δ Unit
  | .commit => Delegate.commit
  | .rollback => Delegate.rollback

theorem perform_call [Delegate δ] (x : Ending) :
    Controller.perform (δ := δ) (.call x.call) =
      (do Controller.endTransaction x.transactionCall x.act; return .done) := by
  cases x <;> rfl

theorem act_logged [Delegate δ] (x : Ending) :
    x.act (δ := Logged δ) = Logged.note (.call x.call) x.act := by
  cases x <;> rfl

theorem act_recorder (x : Ending) :
    x.act (δ := Recorder) = Recorder.unlessFailing x.method (Recorder.record x.event) := by
  cases x <;> rfl

theorem act_connection [Database σ] (x : Ending) :
    x.act (δ := Connection σ) =
      (do Connection.refuseInAutoCommit x.transactionCall; Connection.endTransaction x.request) := by
  cases x <;> rfl

end Ending

section Pending

namespace Controller

/-- The controller over the delegate itself. -/
def unlogged (w : Controller (Logged δ)) : Controller δ :=
  { delegate := w.delegate.delegate, autoCommit := w.autoCommit, smartCommit := w.smartCommit }

theorem unlogged_of_above {w : Controller (Logged δ)} {c : Controller δ}
    (h : Above Logged.Holds w c) : w.unlogged = c := by
  obtain ⟨hdelegate, hmode, hsmart⟩ := h
  obtain ⟨d, on, smart⟩ := c
  obtain rfl : w.delegate.delegate = d := hdelegate
  obtain rfl : w.autoCommit = on := hmode
  obtain rfl : w.smartCommit = smart := hsmart
  rfl

/-- The end `x` takes effect on the delegate, which then fails with `e` to go back to auto-commit. -/
structure Strands (c : Controller Recorder) (x : Ending) (e : DbError) : Prop where
  caller : c.autoCommit = false
  smart : c.smartCommit = true
  off : c.delegate.autoCommit = false
  answers : c.delegate.failure? .autoCommit = none
  ends : c.delegate.failure? x.method = none
  fails : c.delegate.failure? .setAutoCommit = some e

/-- The controller behind an end that strands: all that is new is that the end is written down. -/
def stranded (c : Controller Recorder) (x : Ending) : Controller Recorder :=
  { c with delegate := { c.delegate with events := x.event :: c.delegate.events } }

/-- What a failed end with the error `e` leaves behind, and the calls that it has made: nothing is new
and no end has succeeded, or the end strands. -/
inductive EndFails (c : Controller Recorder) (x : Ending) (e : DbError) :
    Controller Recorder → List Attempt → Prop where
  | pending {log : List Attempt} : (∀ e', ¬c.Strands x e') → ⟨.call x.call, none⟩ ∉ log →
      EndFails c x e c log
  | strands : c.Strands x e → EndFails c x e (c.stranded x)
      [⟨.autoCommit, none⟩, ⟨.call x.call, none⟩, ⟨.call (.setAutoCommit true), some e⟩]

theorem ends_ending_logged (x : Ending) (c : Controller Recorder) :
    Ends (perform (.call x.call)) c.logged (fun _ _ => ∀ e, ¬c.Strands x e)
      fun e w => c.EndFails x e w.unlogged w.delegate.log := by
  simp only [x.perform_call, x.act_logged, x.act_recorder, endTransaction, delegateAutoCommit,
    setDelegateAutoCommit, Delegate.autoCommit, Delegate.setAutoCommit, ends_bind, ends_pure, ends_get,
    ends_ite, ends_modify, ends_refuseInAutoCommit, ends_onDelegate, Logged.ends_note_iff,
    Recorder.ends_unlessFailing_iff, Recorder.record, Recorder.failure?_record, logged]
  split
  · -- refused without a call
    rename_i hon
    exact .pending (fun _ h => absurd hon (by simp [h.caller])) List.not_mem_nil
  split
  · rename_i hoff hsmart
    cases hask : c.delegate.failure? .autoCommit with
    | some e => exact .pending (fun _ h => absurd hask (by simp [h.answers])) (by simp)
    | none =>
      dsimp only
      split
      · rename_i hflag
        cases hend : c.delegate.failure? x.method with
        | some e => exact .pending (fun _ h => absurd hend (by simp [h.ends])) (by simp)
        | none =>
          -- the end has taken effect, and one call is left that can fail
          cases hback : c.delegate.failure? .setAutoCommit with
          | some e =>
            exact .strands ⟨by simpa using hoff, hsmart, by simpa using hflag, hask, hend, hback⟩
          | none => exact fun _ h => absurd hback (by simp [h.fails])
      · -- in auto-commit the end is not passed on
        rename_i hflag
        have hnot : ∀ e, ¬c.Strands x e := fun _ h => hflag (by simp [h.off])
        cases c.delegate.failure? .setAutoCommit with
        | some e => exact .pending hnot (by simp)
        | none => exact hnot
  · -- without smart commit the end is the only call
    rename_i hplain
    have hnot : ∀ e, ¬c.Strands x e := fun _ h => hplain h.smart
    cases c.delegate.failure? x.method with
    | some e => exact .pending hnot (by simp)
    | none => exact hnot

/-- So an end succeeds if it does not strand, or it fails. -/
theorem ending_outcome (x : Ending) (c : Controller Recorder) :
    (∃ r c', perform (.call x.call) c = .ok r c' ∧ ∀ e, ¬c.Strands x e) ∨
      ∃ e c', perform (.call x.call) c = .error e c' ∧
        c.EndFails x e c' (c.attempts (perform (.call x.call))) := by
  have hlogged := ends_ending_logged x c
  have hsim : Agree (Above Logged.Holds) (perform (.call x.call) c.logged) (perform (.call x.call) c) :=
    perform_simulates Logged.logged_sim (.call x.call) _ _ c.above_logged
  rcases hsim.outcome with ⟨r, w, c', hw, hok, -⟩ | ⟨e, w, c', hw, herror, habove⟩
  · exact .inl ⟨r, c', hok, hlogged.of_ok hw⟩
  · refine .inr ⟨e, c', herror, ?_⟩
    rw [attempts, hw, ← unlogged_of_above habove]
    exact hlogged.of_error hw

end Controller

open Controller

/-- **An end that fails leaves the transaction pending, unless it strands.** Over a recorder that fails
in any way, a commit or a rollback that fails without stranding has changed nothing, and the delegate
has not carried it out, so that the call can be made again. One that strands has been carried out: the
delegate has answered that its flag is off and has ended the transaction, and only then it has failed to
go back to auto-commit. -/
theorem failed_end_leaves_pending (x : Ending) (c : Controller Recorder) :
    (∀ e c', perform (.call x.call) c = .error e c' → (∀ e', ¬c.Strands x e') →
        c' = c ∧ ⟨.call x.call, none⟩ ∉ c.attempts (perform (.call x.call))) ∧
      ∀ e, c.Strands x e →
        perform (.call x.call) c = .error e (c.stranded x) ∧
          c.attempts (perform (.call x.call)) = [⟨.autoCommit, none⟩, ⟨.call x.call, none⟩,
            ⟨.call (.setAutoCommit true), some e⟩] := by
  rcases ending_outcome x c with ⟨r, c₁, hok, hnot⟩ | ⟨e₁, c₁, herror, hfails⟩
  · refine ⟨fun e c' h => ?_, fun e h => absurd h (hnot e)⟩
    rw [hok] at h
    cases h
  · generalize c.attempts (perform (.call x.call)) = log at hfails ⊢
    cases hfails with
    | pending hnot hlog =>
      refine ⟨fun e c' h _ => ?_, fun e h => absurd h (hnot e)⟩
      rw [herror] at h
      cases h
      exact ⟨rfl, hlog⟩
    | strands hstrands =>
      refine ⟨fun e c' _ hnot => absurd hstrands (hnot e₁), fun e h => ?_⟩
      -- it strands with one error only
      obtain rfl : e₁ = e := Option.some.inj (hstrands.fails.symm.trans h.fails)
      exact ⟨herror, rfl⟩

/-- A recorder that cannot commit leaves the write pending; one whose flag cannot be changed has rolled
it back. -/
theorem failed_commit_leaves_write_pending :
    let e : DbError := .reported .connection "gone"
    let d : Recorder := { autoCommit := true, failures := [(.commit, e)] }
    let c := (run perform [.call (.setAutoCommit false), .call (.execute "DELETE FROM t")]
      ⟨d, true, true⟩).2
    let c₂ : Controller Recorder :=
      ⟨{ autoCommit := false, failures := [(.setAutoCommit, e)] }, false, true⟩
    (Reachable d c ∧ (∀ e', ¬c.Strands .commit e') ∧
      ∃ c', perform (.call .commit) c = .error e c' ∧ c' = c ∧
        ⟨.call .commit, none⟩ ∉ c.attempts (perform (.call .commit))) ∧
      c₂.Strands .rollback e ∧ perform (.call .rollback) c₂ = .error e (c₂.stranded .rollback) := by
  intro e d c c₂
  have hc : Reachable d c := .run _ (.wrap rfl)
  have hnot : ∀ e', ¬c.Strands .commit e' := fun _ h => absurd h.ends (by decide +kernel)
  have hrun : ∃ c', perform (.call .commit) c = .error e c' := ⟨_, by rfl⟩
  obtain ⟨c', hc'⟩ := hrun
  have hstrands : c₂.Strands .rollback e := ⟨rfl, rfl, rfl, rfl, rfl, rfl⟩
  exact ⟨⟨hc, hnot, c', hc', (failed_end_leaves_pending .commit c).1 e c' hc' hnot⟩, hstrands,
    ((failed_end_leaves_pending .rollback c₂).2 e hstrands).1⟩

/-- A recorder whose flag cannot be changed: the commit of a write fails though it has been carried
out. -/
theorem commit_strands :
    let e : DbError := .reported .connection "connection lost"
    let d : Recorder := { autoCommit := false, failures := [(.setAutoCommit, e)] }
    let c := (run perform [.call (.execute "DELETE FROM t")] ⟨d, false, true⟩).2
    Reachable d c ∧ answerOf (perform (.call .commit) c) = .error e ∧
      (stateOf (perform (.call .commit) c)).delegate.events = .commit :: c.delegate.events ∧
      ⟨.call .commit, none⟩ ∈ c.attempts (perform (.call .commit)) := by
  intro e d c
  have hc : Reachable d c := .run _ (.wrap rfl)
  exact ⟨hc, by rfl, by decide +kernel, by decide +kernel⟩

end Pending

section Sent

variable [Database σ]

/-- An end over an orderly connection, with the caller's mode off. The database decides about an open
transaction, and without one there is nothing to ask it. -/
theorem Controller.ends_ending_connection (x : Ending) {c : Controller (Connection σ)}
    {Q : Reply → Controller (Connection σ) → Prop} {R : DbError → Controller (Connection σ) → Prop}
    (hoff : c.autoCommit = false) (horderly : c.delegate.Orderly)
    (hplain : c.smartCommit = false → c.delegate.autoCommit = false) :
    Ends (perform (.call x.call)) c Q R ↔
      if c.delegate.inTransaction = true then
        match Database.execute x.request c.delegate.database with
        | .ok _ s => Q .done { c with
            delegate := { c.delegate with
              database := s, inTransaction := false, autoCommit := c.smartCommit } }
        | .error e s => R (.statement e) { c with delegate := { c.delegate with database := s } }
      else Q .done { c with delegate := { c.delegate with autoCommit := c.smartCommit } } := by
  obtain ⟨⟨database, kind, on, inTransaction, savepoints⟩, caller, smart⟩ := c
  obtain rfl : caller = false := hoff
  simp only [x.perform_call, x.act_connection, endTransaction, setDelegateAutoCommit,
    Delegate.setAutoCommit, ends_bind, ends_pure, ends_get, ends_ite, ends_modify, ends_discard,
    ends_refuseInAutoCommit, ends_delegateAutoCommit_connection, ends_onDelegate,
    Connection.ends_refuseInAutoCommit, Connection.endTransaction, Connection.send,
    Connection.ends_onDatabase, Bool.false_eq_true, if_false, if_true]
  cases inTransaction with
  | false =>
    cases smart with
    | true => cases on <;> rfl
    | false =>
      obtain rfl : on = false := hplain rfl
      rfl
  | true =>
    -- an open transaction means that the flag is off
    obtain rfl : on = false := horderly rfl
    cases Database.execute x.request database <;> cases smart <;> rfl

/-- A request is written down, whatever the database makes of it. -/
theorem Tapped.sent_execute (r : Request) (t : Tapped σ) :
    (stateOf (Database.execute r t)).sent = t.sent ++ [r.text] := by
  show (stateOf (Tapped.tap r.text (Database.execute r) t)).sent = _
  unfold Tapped.tap
  cases Database.execute r t.database <;> rfl

/-- **An end sends one text, and only to end a transaction that is open.** In every reachable state with
the caller's mode off, and over any database, a commit or a rollback sends its own word if a transaction
is open and nothing otherwise, so that a rollback never commits. Behind a success no transaction is open,
and under smart commit the connection is in auto-commit; a failure leaves both settings, the flag of the
connection and the open transaction as they were. -/
theorem end_sends_one_text {d : Connection (Tapped σ)} {c : Controller (Connection (Tapped σ))}
    (hd : Arises Connection.IsFresh d) (hc : Reachable d c) (hoff : c.autoCommit = false) (x : Ending) :
    (stateOf (Controller.perform (.call x.call) c)).delegate.database.sent =
        c.delegate.database.sent ++ (if c.delegate.inTransaction then [x.request.text] else []) ∧
      (∀ r c', Controller.perform (.call x.call) c = .ok r c' →
        c'.delegate.inTransaction = false ∧ (c.smartCommit = true → c'.delegate.autoCommit = true)) ∧
      ∀ e c', Controller.perform (.call x.call) c = .error e c' →
        c'.autoCommit = c.autoCommit ∧ c'.smartCommit = c.smartCommit ∧
          c'.delegate.autoCommit = c.delegate.autoCommit ∧
          c'.delegate.inTransaction = c.delegate.inTransaction := by
  have horderly : c.delegate.Orderly :=
    Connection.invariant_orderly.reachable (Connection.orderly_of_arises hd) hc
  have hplain : c.smartCommit = false → c.delegate.autoCommit = false := fun hsmart =>
    (hc.sound.delegate_eq_caller hsmart).trans hoff
  have hsent := Tapped.sent_execute x.request c.delegate.database
  have hends : Ends (Controller.perform (.call x.call)) c
      (fun _ c' => c'.delegate.database.sent = c.delegate.database.sent ++
          (if c.delegate.inTransaction then [x.request.text] else []) ∧
        c'.delegate.inTransaction = false ∧ (c.smartCommit = true → c'.delegate.autoCommit = true))
      fun _ c' => c'.delegate.database.sent = c.delegate.database.sent ++
          (if c.delegate.inTransaction then [x.request.text] else []) ∧
        c'.autoCommit = c.autoCommit ∧ c'.smartCommit = c.smartCommit ∧
          c'.delegate.autoCommit = c.delegate.autoCommit ∧
          c'.delegate.inTransaction = c.delegate.inTransaction := by
    rw [Controller.ends_ending_connection x hoff horderly hplain]
    by_cases hin : c.delegate.inTransaction = true
    · rw [if_pos hin, if_pos hin]
      cases hanswer : Database.execute x.request c.delegate.database with
      | ok n s =>
        rw [hanswer] at hsent
        exact ⟨hsent, rfl, id⟩
      | error e s =>
        rw [hanswer] at hsent
        exact ⟨hsent, rfl, rfl, rfl, rfl⟩
    · rw [if_neg hin, if_neg hin]
      exact ⟨(List.append_nil _).symm, by simpa using hin, id⟩
  refine ⟨?_, fun _ _ hr => (hends.of_ok hr).2, fun _ _ hr => (hends.of_error hr).2⟩
  exact (hends.mono (fun _ _ h => h.1) fun _ _ h => h.1).state

/-- A rollback of a table over a store sends `ROLLBACK` behind the two texts in front of it. -/
theorem rollback_sends_rollback :
    let d : Connection (Tapped Store) := { database := ⟨{}, []⟩, kind := .sqlite }
    let ops : List Op := [.call (.setAutoCommit false), .call (.execute "CREATE TABLE t (a INTEGER)")]
    let c := (run Controller.perform ops ⟨d, true, true⟩).2
    Arises Connection.IsFresh d ∧ Reachable d c ∧ c.autoCommit = false ∧
      (stateOf (Controller.perform (.call .rollback) c)).delegate.database.sent =
        ["BEGIN", "CREATE TABLE t (a INTEGER)", "ROLLBACK"] ∧
      ∃ r c', Controller.perform (.call .rollback) c = .ok r c' ∧
        c'.delegate.inTransaction = false ∧ c'.delegate.autoCommit = true := by
  intro d ops c
  have hd : Arises Connection.IsFresh d := .fresh ⟨rfl, rfl, rfl⟩
  have hc : Reachable d c := .run _ (.wrap rfl)
  have hoff : c.autoCommit = false := by decide +kernel
  have hopen : c.delegate.inTransaction = true := by decide +kernel
  have hfront : c.delegate.database.sent = ["BEGIN", "CREATE TABLE t (a INTEGER)"] := by
    decide +kernel
  obtain ⟨hsent, hok, -⟩ := end_sends_one_text hd hc hoff .rollback
  have hsucceeds : (answerOf (Controller.perform (.call .rollback) c)).toOption.map (fun _ => ()) =
      some () := by decide +kernel
  obtain ⟨r, c', hc', -⟩ := exists_ok_of_answer hsucceeds
  obtain ⟨hended, hback⟩ := hok r c' hc'
  refine ⟨hd, hc, hoff, ?_, r, c', hc', hended, hback (by decide +kernel)⟩
  rw [hopen, hfront] at hsent
  exact hsent

end Sent

end DeferredTx.Session
