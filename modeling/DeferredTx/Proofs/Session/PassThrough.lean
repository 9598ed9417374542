import DeferredTx.Proofs.Session.Orderly
import DeferredTx.Store.Database

/-!
# A controller without smart commit

A controller with smart commit off has nothing of its own to do: its mode is the flag of the connection
below it, and every operation is the call of the same name.

* `Tapped`: a database with the SQL texts that have been sent to it.
* `Op.call?`: the call that an operation stands for.
* `PassThrough`: a controller that stands for the connection below it.
* `PassThrough.perform`: every operation keeps it so, and answers like the call.
* `controller_is_connection`: **without smart commit, a controller over a connection is the
  connection**, for runs of any length over any database.
-/

namespace DeferredTx.Session

variable {σ α β : Type}

/-- A database with the SQL texts that have been sent to it, carried out or not, the earliest first. -/
structure Tapped (σ : Type) where
  database : σ
  sent : List String

namespace Tapped

/-- Sends a text and writes it down. -/
def tap (text : String) (act : EStateM StatementError σ α) : EStateM StatementError (Tapped σ) α :=
  fun t =>
    match act t.database with
    | .ok a s => .ok a ⟨s, t.sent ++ [text]⟩
    | .error e s => .error e ⟨s, t.sent ++ [text]⟩

instance [Database σ] : Database (Tapped σ) where
  execute r := tap r.text (Database.execute r)
  query sql := tap sql (Database.query sql)
  close := fun t =>
    match Database.close t.database with
    | .ok a s => .ok a ⟨s, t.sent⟩
    | .error e s => .error e ⟨s, t.sent⟩

end Tapped

/-- The call that an operation stands for. A prepared statement is executed or queried like any
other. -/
def Op.call? : Op → Option Call
  | .call k => some k
  | .preparedExecute sql => some (.execute sql)
  | .preparedQuery sql => some (.query sql)
  | .setSmartCommit _ | .beforeExecute .. => none

theorem Controller.refuse_bind {δ : Type} (call : TransactionCall) (act : Action (Controller δ) α)
    (w : Controller δ) :
    (do refuseInAutoCommit call; act) w =
      if w.autoCommit = true then .error (.inAutoCommit call) w else act w := by
  obtain ⟨d, on, smart⟩ := w
  cases on <;> rfl

/-- A choice by the setting for smart commit. -/
theorem Controller.ifSmart {δ : Type} (yes no : Action (Controller δ) α) (w : Controller δ) :
    (do if (← get).smartCommit then yes else no : Action (Controller δ) α) w =
      if w.smartCommit = true then yes w else no w := by
  obtain ⟨d, on, smart⟩ := w
  cases smart <;> rfl

/-- The mode that is there already is set without a word to the delegate. -/
theorem Controller.setAutoCommit_same {δ : Type} [Delegate δ] (w : Controller δ) :
    setAutoCommit w.autoCommit w = .ok () w := by
  obtain ⟨d, on, smart⟩ := w
  cases on <;> rfl

theorem Controller.setAutoCommit_change {δ : Type} [Delegate δ] {w : Controller δ} {on : Bool}
    (hsmart : w.smartCommit = false) (hne : w.autoCommit ≠ on) :
    setAutoCommit on w =
      (do setDelegateAutoCommit on
          modify fun c => { c with autoCommit := on } : Action (Controller δ) Unit) w := by
  obtain ⟨d, on', smart⟩ := w
  obtain rfl : smart = false := hsmart
  cases on <;> cases on'
  · exact absurd rfl hne
  · rfl
  · rfl
  · exact absurd rfl hne

/-- An action that is run unless the delegate is in auto-commit. -/
theorem Controller.unlessAutoCommit_of_off [Database σ] {w : Controller (Connection σ)}
    (hoff : w.delegate.autoCommit = false) (act : Action (Connection σ) Unit) :
    (do if !(← delegateAutoCommit) then onDelegate act : Action (Controller (Connection σ)) Unit) w =
      onDelegate act w := by
  obtain ⟨⟨database, kind, on, inTransaction, savepoints⟩, caller, smart⟩ := w
  obtain rfl : on = false := hoff
  rfl

theorem Connection.refuse_bind (call : TransactionCall) (act : Action (Connection σ) α)
    (c : Connection σ) :
    (do refuseInAutoCommit call; act) c =
      if c.autoCommit = true then .error (.inAutoCommit call) c else act c := by
  obtain ⟨database, kind, on, inTransaction, savepoints⟩ := c
  cases on <;> rfl

/-- Setting the flag of an orderly connection to what it is changes nothing. -/
theorem Connection.setAutoCommit_same [Database σ] {c : Connection σ} (h : c.Orderly) :
    Delegate.setAutoCommit c.autoCommit c = .ok () c := by
  obtain ⟨database, kind, on, inTransaction, savepoints⟩ := c
  cases on with
  | false => rfl
  | true =>
    cases inTransaction with
    | false => rfl
    | true => cases h rfl

/-- The calls that release a savepoint. -/
def Call.isRelease : Call → Bool
  | .release _ => true
  | _ => false

/-- Calls on a delegate, one after another, of which none releases a savepoint while the flag of the
connection is on. -/
def ReleasesOff [Database σ] : List Call → Connection σ → Prop
  | [], _ => True
  | k :: rest, c =>
    (k.isRelease = true → c.autoCommit = false) ∧ ReleasesOff rest (stateOf (Delegate.perform k c))

/-- The controller `w` has smart commit off and the connection `c` below it, with the same mode. -/
structure PassThrough (w : Controller (Connection σ)) (c : Connection σ) : Prop where
  delegate : w.delegate = c
  autoCommit : w.autoCommit = c.autoCommit
  smartCommit : w.smartCommit = false
  orderly : c.Orderly

namespace PassThrough

open Connection (Orderly)

variable {w : Controller (Connection σ)} {c : Connection σ}

theorem flag_off (h : PassThrough w c) (hoff : c.autoCommit = false) :
    w.delegate.autoCommit = false := by
  rw [h.delegate]
  exact hoff

/-- What is done on the connection below is done on the connection. -/
theorem onDelegate (h : PassThrough w c) {act : Action (Connection σ) α}
    (hflag : Keeps Connection.autoCommit act) (hkept : Kept Orderly act) :
    Agree PassThrough (Controller.onDelegate act w) (act c) := by
  have hflag := hflag c
  have hkept := hkept c h.orderly
  obtain ⟨rfl, hmode, hsmart, -⟩ := h
  unfold Ends at hflag hkept
  unfold Controller.onDelegate
  generalize act w.delegate = r at hflag hkept
  cases r with
  | ok a d => exact .ok a ⟨rfl, hmode.trans hflag.symm, hsmart, hkept⟩
  | error e d => exact .error e ⟨rfl, hmode.trans hflag.symm, hsmart, hkept⟩

/-- Both refuse a call in auto-commit, in the same words. -/
theorem refuse (h : PassThrough w c) (call : TransactionCall)
    {act : Action (Controller (Connection σ)) α} {act' : Action (Connection σ) α}
    (hoff : c.autoCommit = false →
      Agree PassThrough (act w) ((do Connection.refuseInAutoCommit call; act') c)) :
    Agree PassThrough ((do Controller.refuseInAutoCommit call; act) w)
      ((do Connection.refuseInAutoCommit call; act') c) := by
  rw [Controller.refuse_bind, h.autoCommit]
  cases hon : c.autoCommit with
  | true =>
    rw [Connection.refuse_bind, hon]
    exact .error _ h
  | false => exact hoff hon

variable [Database σ]

/-- With nothing deferred, a statement needs no preparation. -/
theorem beforeExecute (h : PassThrough w c) (sql : String) (always : Bool) :
    Controller.beforeExecute sql always w = .ok () w := by
  obtain ⟨rfl, hmode, -, -⟩ := h
  obtain ⟨d, on, smart⟩ := w
  obtain rfl : on = d.autoCommit := hmode
  obtain ⟨database, kind, on, inTransaction, savepoints⟩ := d
  cases on <;> rfl

theorem setAutoCommit (h : PassThrough w c) (on : Bool) :
    Agree PassThrough (Controller.setAutoCommit on w) (Delegate.setAutoCommit on c) := by
  have hset := LawfulDelegate.setAutoCommit on c
  have hkept := Connection.kept_setAutoCommit on c h.orderly
  obtain ⟨rfl, hmode, hsmart, horderly⟩ := h
  obtain ⟨d, on', smart⟩ := w
  obtain rfl : on' = d.autoCommit := hmode
  obtain rfl : smart = false := hsmart
  dsimp only at hset hkept horderly ⊢
  by_cases hsame : d.autoCommit = on
  · -- the controller stops at once, and the connection changes nothing
    subst hsame
    rw [show Controller.setAutoCommit d.autoCommit ⟨d, d.autoCommit, false⟩ = _ from
      Controller.setAutoCommit_same _, Connection.setAutoCommit_same horderly]
    exact .ok () ⟨rfl, rfl, rfl, horderly⟩
  · rw [Controller.setAutoCommit_change rfl hsame]
    simp only [Controller.setDelegateAutoCommit, Controller.onDelegate, bind, EStateM.bind]
    unfold Ends at hset hkept
    generalize Delegate.setAutoCommit on d = r at hset hkept
    cases r with
    | ok a d' => exact .ok () ⟨rfl, hset.symm, rfl, hkept⟩
    | error e d' => exact .error e ⟨rfl, hset.symm, rfl, hkept⟩

/-- A commit and a rollback pass through. -/
theorem endTransaction (h : PassThrough w c) (call : TransactionCall) (r : Request) :
    Agree PassThrough
      (Controller.endTransaction call (do
        Connection.refuseInAutoCommit call
        Connection.endTransaction r) w)
      ((do Connection.refuseInAutoCommit call
           Connection.endTransaction r : Action (Connection σ) Unit) c) := by
  refine h.refuse call fun _ => ?_
  have hact := h.onDelegate
    (keeps_bind (Connection.keeps_refuseInAutoCommit call) fun _ => Connection.keeps_endTransaction r)
    (kept_bind (Connection.kept_refuseInAutoCommit call) fun _ => Connection.kept_endTransaction r)
  rw [Controller.ifSmart, if_neg (by simp [h.smartCommit])]
  exact hact

theorem setSavepoint (h : PassThrough w c) (name : Option String) :
    Agree PassThrough (Controller.setSavepoint name w) (Delegate.setSavepoint name c) := by
  refine h.refuse .setSavepoint fun hoff => ?_
  have hact := h.onDelegate (LawfulDelegate.setSavepoint name) (Connection.kept_setSavepoint name)
  have hpass : (do if ← Controller.delegateAutoCommit then Controller.setDelegateAutoCommit false
                   Controller.onDelegate (Delegate.setSavepoint name)) w =
      Controller.onDelegate (Delegate.setSavepoint name) w := by
    obtain ⟨rfl, -, -, -⟩ := h
    obtain ⟨⟨database, kind, on, inTransaction, savepoints⟩, on', smart⟩ := w
    obtain rfl : on = false := hoff
    rfl
  rw [hpass]
  exact hact

theorem rollbackTo (h : PassThrough w c) (s : Savepoint) :
    Agree PassThrough (Controller.rollbackTo s w) (Delegate.rollbackTo s c) := by
  refine h.refuse .rollbackToSavepoint fun hoff => ?_
  have hact := h.onDelegate (LawfulDelegate.rollbackTo s)
    (kept_bind (Connection.kept_refuseInAutoCommit _) fun _ => Connection.kept_send _)
  rw [Controller.unlessAutoCommit_of_off (h.flag_off hoff)]
  exact hact

/-- A release passes through unless the flag is on: then the controller has nothing to release, and
the connection sends it all the same. -/
theorem release (h : PassThrough w c) (hoff : c.autoCommit = false) (s : Savepoint) :
    Agree PassThrough (Controller.release s w) (Delegate.release s c) := by
  have hact := h.onDelegate (LawfulDelegate.release s) (Connection.kept_send _)
  rw [Controller.release, Controller.unlessAutoCommit_of_off (h.flag_off hoff)]
  exact hact

/-- A text passes through. -/
theorem forward (h : PassThrough w c) (sql : String) (always : Bool)
    (act : EStateM StatementError σ α) :
    Agree PassThrough
      ((do Controller.beforeExecute sql always
           Controller.onDelegate (do Connection.ensureTransaction; Connection.onDatabase act)) w)
      ((do Connection.ensureTransaction; Connection.onDatabase act : Action (Connection σ) α) c) := by
  have hact := h.onDelegate
    (keeps_bind Connection.keeps_ensureTransaction fun _ => Connection.keeps_onDatabase act)
    (kept_bind Connection.kept_ensureTransaction fun _ => Connection.kept_onDatabase act)
  simpa only [bind, EStateM.bind, h.beforeExecute sql always] using hact

/-- **Every operation answers as the call that it stands for**, and the controller still stands for
the connection behind it. -/
theorem perform (h : PassThrough w c) {op : Op} {k : Call} (hk : op.call? = some k)
    (hoff : ∀ s, k = .release s → c.autoCommit = false) :
    Agree PassThrough (Controller.perform op w) (Delegate.perform k c) := by
  cases op with
  | setSmartCommit on => cases hk
  | beforeExecute sql always => cases hk
  | preparedExecute sql =>
    cases hk
    exact (h.forward sql true _).bind_pure _
  | preparedQuery sql =>
    cases hk
    exact (h.forward sql false _).bind_pure _
  | call k' =>
    cases hk
    cases k with
    | setAutoCommit on => exact (h.setAutoCommit on).bind_pure _
    | commit => exact (h.endTransaction .commit .commit).bind_pure _
    | rollback => exact (h.endTransaction .rollback .rollback).bind_pure _
    | setSavepoint name => exact (h.setSavepoint name).bind_pure _
    | rollbackTo s => exact (h.rollbackTo s).bind_pure _
    | release s => exact (h.release (hoff s rfl) s).bind_pure _
    | execute sql => exact (h.forward sql false _).bind_pure _
    | query sql => exact (h.forward sql false _).bind_pure _

/-- The same for runs, with the connection and both flags at every step. -/
theorem trace : ∀ (ops : List Op) (calls : List Call) {w : Controller (Connection σ)}
    {c : Connection σ}, PassThrough w c → ops.map Op.call? = calls.map some → ReleasesOff calls c →
    (Session.trace Controller.perform ops w).map (fun x => (x.1, x.2.delegate, x.2.autoCommit)) =
      (Session.trace Delegate.perform calls c).map fun x => (x.1, x.2, x.2.autoCommit)
  | [], [], _, _, _, _, _ => rfl
  | [], _ :: _, _, _, _, hcalls, _ => nomatch hcalls
  | _ :: _, [], _, _, _, hcalls, _ => nomatch hcalls
  | op :: ops, k :: calls, w, c, h, hcalls, hoff => by
    simp only [List.map_cons, List.cons.injEq] at hcalls
    obtain ⟨hk, hcalls⟩ := hcalls
    obtain ⟨hfirst, hrest⟩ := hoff
    have hagree := h.perform hk fun s hs => hfirst (by rw [hs]; rfl)
    simp only [Session.trace, List.map_cons, List.cons.injEq, Prod.mk.injEq]
    generalize Controller.perform op w = r, Delegate.perform k c = r' at hagree hrest
    cases hagree with
    | ok a h' => exact ⟨⟨rfl, h'.delegate, h'.autoCommit⟩, trace ops calls h' hcalls hrest⟩
    | error e h' => exact ⟨⟨rfl, h'.delegate, h'.autoCommit⟩, trace ops calls h' hcalls hrest⟩

/-- A controller that is put over a connection stands for it once smart commit is off; up to then the
connection has nothing to do. -/
theorem wrap {c : Connection σ} (hc : c.Orderly) :
    ∃ w w', Controller.wrap c = .ok w ∧
      Controller.perform (.setSmartCommit false) w = .ok .done w' ∧ PassThrough w' c := by
  refine ⟨⟨c, c.autoCommit, true⟩, ⟨c, c.autoCommit, false⟩, rfl, ?_, rfl, rfl, rfl, hc⟩
  obtain ⟨database, kind, on, inTransaction, savepoints⟩ := c
  cases on <;> rfl

end PassThrough

/-- **Without smart commit a controller over a connection is the connection.** Take a connection at
any point of its life, over a database that does what it likes, and put a controller without smart
commit over it. The operations of the controller and the calls that they stand for give the same
answers, and leave the same connection behind at every step: with the same SQL texts sent, the same
flag, transaction and number of savepoints. The flag is the controller's mode. -/
theorem controller_is_connection [Database σ] {c : Connection (Tapped σ)}
    (hc : Arises Connection.IsFresh c) (ops : List Op) (calls : List Call)
    (hcalls : ops.map Op.call? = calls.map some) (hoff : ReleasesOff calls c) :
    ∃ w w', Controller.wrap c = .ok w ∧
      Controller.perform (.setSmartCommit false) w = .ok .done w' ∧ w'.delegate = c ∧
      (trace Controller.perform ops w').map (fun x => (x.1, x.2.delegate, x.2.autoCommit)) =
        (trace Delegate.perform calls c).map fun x => (x.1, x.2, x.2.autoCommit) := by
  obtain ⟨w, w', hwrap, hsmart, h⟩ := PassThrough.wrap (Connection.orderly_of_arises hc)
  exact ⟨w, w', hwrap, hsmart, h.delegate, h.trace ops calls hcalls hoff⟩

/-- A savepoint that is made, released and committed over a store sends the same six texts. -/
theorem savepoint_passes_through :
    let c : Connection (Tapped Store) := { database := ⟨{}, []⟩, kind := .sqlite }
    let ops : List Op := [.call (.setAutoCommit false), .preparedExecute "CREATE TABLE t (a INTEGER)",
      .call (.setSavepoint none), .call (.execute "INSERT INTO t VALUES (1)"),
      .call (.release ⟨1, none⟩), .call .commit]
    let calls : List Call := [.setAutoCommit false, .execute "CREATE TABLE t (a INTEGER)",
      .setSavepoint none, .execute "INSERT INTO t VALUES (1)", .release ⟨1, none⟩, .commit]
    Arises Connection.IsFresh c ∧ ops.map Op.call? = calls.map some ∧ ReleasesOff calls c ∧
      (run Delegate.perform calls c).2.database.sent =
        ["BEGIN", "CREATE TABLE t (a INTEGER)", "SAVEPOINT sp_1", "INSERT INTO t VALUES (1)",
          "RELEASE SAVEPOINT sp_1", "COMMIT"] ∧
      ∃ w w', Controller.wrap c = .ok w ∧
        Controller.perform (.setSmartCommit false) w = .ok .done w' ∧ w'.delegate = c ∧
        (trace Controller.perform ops w').map (fun x => (x.1, x.2.delegate, x.2.autoCommit)) =
          (trace Delegate.perform calls c).map fun x => (x.1, x.2, x.2.autoCommit) := by
  intro c ops calls
  have hc : Arises Connection.IsFresh c := .fresh ⟨rfl, rfl, rfl⟩
  have hcalls : ops.map Op.call? = calls.map some := rfl
  have hoff : ReleasesOff calls c :=
    ⟨nofun, nofun, nofun, nofun, fun _ => by decide +kernel, nofun, trivial⟩
  exact ⟨hc, hcalls, hoff, by decide +kernel, controller_is_connection hc ops calls hcalls hoff⟩

end DeferredTx.Session
