import DeferredTx.Proofs.Session.Reachable
import DeferredTx.Proofs.Session.Simulation

/-!
# Watching the calls on a delegate

What a controller does to its delegate in between is not part of the state it leaves behind. A watched
delegate writes it down.

* `Exchange`: a call on a delegate, with the flag that it met and the error that it failed with.
* `Watched`: a delegate with the log of its exchanges.
* `watched_sim`, `perform_watch`: watching changes nothing.
* `Controller.calls`: the calls that an operation makes.
* `Quiet`: an action that passes no SQL text on.
-/

namespace DeferredTx.Session

open LawfulDelegate (flag)

variable {δ α β : Type}

/-- A call on a delegate, whether for a caller or for the controller's own sake. -/
inductive DelegateCall where
  | autoCommit
  | call (c : Call)
  | close
  deriving DecidableEq, Repr

/-- The SQL text that a call passes on. -/
def DelegateCall.text? : DelegateCall → Option String
  | .call (.execute sql) | .call (.query sql) => some sql
  | _ => none

/-- A call on a delegate and how it went. -/
structure Exchange where
  call : DelegateCall
  /-- The delegate's flag when the call arrived. -/
  flag : Bool
  /-- The error, if the call failed. -/
  failure : Option DbError
  deriving DecidableEq, Repr

/-- The SQL text that was passed on. -/
def Exchange.text? (x : Exchange) : Option String :=
  x.call.text?

/-- A delegate with the log of the calls on it, the earliest first. -/
structure Watched (δ : Type) where
  delegate : δ
  log : List Exchange

namespace Watched

variable [Delegate δ] [LawfulDelegate δ]

/-- Carries a call out and writes it down. -/
def watch (call : DelegateCall) (act : Action δ α) : Action (Watched δ) α := fun w =>
  match act w.delegate with
  | .ok a d => .ok a ⟨d, w.log ++ [⟨call, flag w.delegate, none⟩]⟩
  | .error e d => .error e ⟨d, w.log ++ [⟨call, flag w.delegate, some e⟩]⟩

instance : Delegate (Watched δ) where
  autoCommit := watch .autoCommit Delegate.autoCommit
  setAutoCommit on := watch (.call (.setAutoCommit on)) (Delegate.setAutoCommit on)
  commit := watch (.call .commit) Delegate.commit
  rollback := watch (.call .rollback) Delegate.rollback
  setSavepoint name := watch (.call (.setSavepoint name)) (Delegate.setSavepoint name)
  rollbackTo s := watch (.call (.rollbackTo s)) (Delegate.rollbackTo s)
  release s := watch (.call (.release s)) (Delegate.release s)
  execute sql := watch (.call (.execute sql)) (Delegate.execute sql)
  query sql := watch (.call (.query sql)) (Delegate.query sql)
  close := watch .close Delegate.close

@[simp]
theorem ends_watch (call : DelegateCall) (act : Action δ α) (w : Watched δ)
    {Q : α → Watched δ → Prop} {R : DbError → Watched δ → Prop} :
    Ends (watch call act) w Q R ↔
      Ends act w.delegate (fun a d => Q a ⟨d, w.log ++ [⟨call, flag w.delegate, none⟩]⟩)
        fun e d => R e ⟨d, w.log ++ [⟨call, flag w.delegate, some e⟩]⟩ := by
  simp only [Ends, watch]
  cases act w.delegate <;> rfl

theorem keeps_watch {act : Action δ α} (h : Keeps flag act) (call : DelegateCall) :
    Keeps (fun w : Watched δ => flag w.delegate) (watch call act) := by
  intro w
  rw [ends_watch]
  exact h w.delegate

/-- A watched delegate has the flag of the delegate. -/
instance : LawfulDelegate (Watched δ) where
  flag w := flag w.delegate
  autoCommit w := (ends_watch ..).2 (LawfulDelegate.autoCommit w.delegate)
  setAutoCommit on w := (ends_watch ..).2 (LawfulDelegate.setAutoCommit on w.delegate)
  commit := keeps_watch LawfulDelegate.commit _
  rollback := keeps_watch LawfulDelegate.rollback _
  setSavepoint name := keeps_watch (LawfulDelegate.setSavepoint name) _
  rollbackTo s := keeps_watch (LawfulDelegate.rollbackTo s) _
  release s := keeps_watch (LawfulDelegate.release s) _
  execute sql := keeps_watch (LawfulDelegate.execute sql) _
  query sql := keeps_watch (LawfulDelegate.query sql) _

theorem simulates_watch (call : DelegateCall) (act : Action δ α) :
    Simulates (fun (w : Watched δ) d => w.delegate = d) (watch call act) act := by
  rintro w _ rfl
  simp only [watch]
  cases act w.delegate with
  | ok a d => exact .ok a rfl
  | error e d => exact .error e rfl

/-- A watched delegate answers as the delegate does. -/
theorem watched_sim : DelegateSim (fun (w : Watched δ) d => w.delegate = d) where
  autoCommit := simulates_watch _ _
  setAutoCommit _ := simulates_watch _ _
  commit := simulates_watch _ _
  rollback := simulates_watch _ _
  setSavepoint _ := simulates_watch _ _
  rollbackTo _ := simulates_watch _ _
  release _ := simulates_watch _ _
  execute _ := simulates_watch _ _
  query _ := simulates_watch _ _

end Watched

namespace Controller

variable [Delegate δ] [LawfulDelegate δ]

/-- The controller over the watched delegate, with an empty log. -/
def watch (c : Controller δ) : Controller (Watched δ) :=
  { delegate := ⟨c.delegate, []⟩, autoCommit := c.autoCommit, smartCommit := c.smartCommit }

/-- The calls that an operation makes on the delegate, the earliest first. -/
def calls (op : Op) (c : Controller δ) : List Exchange :=
  (stateOf (perform op c.watch)).delegate.log

/-- **Watching changes nothing.** An operation has the same outcome over the watched delegate, and
leaves the same controller behind. -/
theorem perform_watch (op : Op) (c : Controller δ) :
    Agree (Above fun (w : Watched δ) d => w.delegate = d) (perform op c.watch) (perform op c) :=
  perform_simulates Watched.watched_sim op _ _ ⟨rfl, rfl, rfl⟩

end Controller

/-- A log of calls that pass no SQL text on. -/
def Wordless (log : List Exchange) : Prop :=
  ∀ x ∈ log, x.text? = none

/-- A log of calls that have succeeded. -/
def Clean (log : List Exchange) : Prop :=
  ∀ x ∈ log, x.failure = none

theorem Wordless.snoc {log : List Exchange} (h : Wordless log) {x : Exchange} (hx : x.text? = none) :
    Wordless (log ++ [x]) := by
  simpa [Wordless, or_imp, forall_and] using ⟨h, hx⟩

theorem Clean.snoc {log : List Exchange} (h : Clean log) {x : Exchange} (hx : x.failure = none) :
    Clean (log ++ [x]) := by
  simpa [Clean, or_imp, forall_and] using ⟨h, hx⟩

/-- An action that passes no SQL text on, and succeeds only if every call does that it makes. -/
def Quiet (act : Action (Controller (Watched δ)) α) : Prop :=
  ∀ c, Wordless c.delegate.log → Clean c.delegate.log →
    Ends act c (fun _ c' => Wordless c'.delegate.log ∧ Clean c'.delegate.log)
      fun _ c' => Wordless c'.delegate.log

/-- From an empty log. -/
theorem Quiet.ends {act : Action (Controller (Watched δ)) α} [Delegate δ] [LawfulDelegate δ]
    (h : Quiet act) (c : Controller δ) :
    Ends act c.watch (fun _ c' => Wordless c'.delegate.log ∧ Clean c'.delegate.log)
      fun _ c' => Wordless c'.delegate.log :=
  h c.watch (List.forall_mem_nil _) (List.forall_mem_nil _)

section Quiet

variable {act : Action (Controller (Watched δ)) α} {f : α → Action (Controller (Watched δ)) β}

theorem quiet_pure (a : α) : Quiet (δ := δ) (pure a) :=
  fun _ hw hc => ⟨hw, hc⟩

theorem quiet_throw (e : DbError) : Quiet (δ := δ) (α := α) (throw e) :=
  fun _ hw _ => hw

theorem quiet_bind (h : Quiet act) (hf : ∀ a, Quiet (f a)) : Quiet (act >>= f) := by
  intro c hw hc
  rw [ends_bind]
  exact (h c hw hc).mono (fun a c' h' => hf a c' h'.1 h'.2) fun _ _ h' => h'

theorem quiet_get {f : Controller (Watched δ) → Action (Controller (Watched δ)) α}
    (h : ∀ c, Quiet (f c)) : Quiet (get >>= f) :=
  fun c hw hc => h c c hw hc

/-- A change of the settings. -/
theorem quiet_modify {f : Controller (Watched δ) → Controller (Watched δ)}
    (h : ∀ c, (f c).delegate = c.delegate) :
    Quiet (modify f : Action (Controller (Watched δ)) PUnit) := by
  intro c hw hc
  rw [ends_modify, h c]
  exact ⟨hw, hc⟩

theorem quiet_ite (p : Prop) [Decidable p] {no : Action (Controller (Watched δ)) α}
    (h : Quiet act) (hno : Quiet no) : Quiet (if p then act else no) := by
  split
  · exact h
  · exact hno

theorem quiet_refuseInAutoCommit (call : TransactionCall) :
    Quiet (δ := δ) (Controller.refuseInAutoCommit call) :=
  quiet_get fun _ => quiet_ite _ (quiet_throw _) (quiet_pure _)

variable [Delegate δ] [LawfulDelegate δ]

theorem quiet_watch {call : DelegateCall} (h : call.text? = none) (act : Action δ α) :
    Quiet (Controller.onDelegate (Watched.watch call act)) := by
  intro c hw hc
  rw [ends_onDelegate, Watched.ends_watch]
  unfold Ends
  split
  · exact ⟨hw.snoc h, hc.snoc rfl⟩
  · exact hw.snoc h

theorem quiet_delegateAutoCommit : Quiet (δ := δ) Controller.delegateAutoCommit :=
  quiet_watch rfl _

theorem quiet_setDelegateAutoCommit (on : Bool) :
    Quiet (δ := δ) (Controller.setDelegateAutoCommit on) :=
  quiet_watch rfl _

theorem quiet_beforeExecute (sql : String) (always : Bool) :
    Quiet (δ := δ) (Controller.beforeExecute sql always) := by
  refine quiet_get fun c => quiet_ite _ ?_ (quiet_pure _)
  refine quiet_bind quiet_delegateAutoCommit fun on => quiet_ite _ ?_ (quiet_pure _)
  exact quiet_ite _ (quiet_setDelegateAutoCommit false) (quiet_pure _)

theorem quiet_setAutoCommit (on : Bool) : Quiet (δ := δ) (Controller.setAutoCommit on) := by
  refine quiet_get fun c => quiet_ite _ ?_ (quiet_pure _)
  exact quiet_bind (quiet_setDelegateAutoCommit _) fun _ => quiet_modify fun _ => rfl

theorem quiet_setSmartCommit (on : Bool) : Quiet (δ := δ) (Controller.setSmartCommit on) := by
  have hlast : Quiet (δ := δ) (modify fun c => { c with smartCommit := on }) :=
    quiet_modify fun _ => rfl
  refine quiet_get fun c => quiet_ite _ (quiet_ite _ ?_ (quiet_ite _ ?_ hlast)) (quiet_pure _)
  · exact quiet_bind (quiet_setDelegateAutoCommit true) fun _ => hlast
  · refine quiet_bind quiet_delegateAutoCommit fun d => quiet_ite _ ?_ hlast
    exact quiet_bind (quiet_setDelegateAutoCommit false) fun _ => hlast

theorem quiet_endTransaction (call : TransactionCall) {act : Action (Watched δ) Unit}
    (h : Quiet (Controller.onDelegate act)) : Quiet (Controller.endTransaction call act) := by
  refine quiet_bind (quiet_refuseInAutoCommit call) fun _ => quiet_get fun c => quiet_ite _ ?_ h
  refine quiet_bind quiet_delegateAutoCommit fun d => quiet_ite _ ?_ (quiet_setDelegateAutoCommit true)
  exact quiet_bind h fun _ => quiet_setDelegateAutoCommit true

theorem quiet_setSavepoint (name : Option String) :
    Quiet (δ := δ) (Controller.setSavepoint name) := by
  have hmake : Quiet (δ := δ) (Controller.onDelegate (Delegate.setSavepoint name)) :=
    quiet_watch rfl _
  refine quiet_bind (quiet_refuseInAutoCommit _) fun _ => ?_
  refine quiet_bind quiet_delegateAutoCommit fun d => quiet_ite _ ?_ hmake
  exact quiet_bind (quiet_setDelegateAutoCommit false) fun _ => hmake

theorem quiet_unlessAutoCommit {act : Action (Watched δ) Unit}
    (h : Quiet (Controller.onDelegate act)) :
    Quiet (do if !(← Controller.delegateAutoCommit) then Controller.onDelegate act) :=
  quiet_bind quiet_delegateAutoCommit fun _ => quiet_ite _ h (quiet_pure _)

end Quiet

end DeferredTx.Session
