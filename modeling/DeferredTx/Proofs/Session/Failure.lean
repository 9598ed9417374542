import DeferredTx.Proofs.Session.Script
import DeferredTx.Session.Recorder

/-!
# Failures

An error of the delegate goes through a controller as it is, and nothing is asked of the delegate
behind it.

* `Logged`: a delegate of any kind with the calls made on it.
* `Cut`: a log of calls of which the last one has failed.
* `ends_perform_logged`: what an operation adds to an empty log.
* `ErrorLaw`, `error_law`: **a failed call is the last one and its error is the answer**, settings
  survive failures, and a refusal of the controller's own comes before any call.
-/

namespace DeferredTx.Session

variable {δ α : Type}

/-- A call on a delegate, and the error if it has failed. -/
structure Attempt where
  call : DelegateCall
  failure : Option DbError
  deriving DecidableEq, Repr

/-- A delegate, lawful or not, with the calls made on it, the earliest first. -/
structure Logged (δ : Type) where
  delegate : δ
  log : List Attempt

namespace Logged

/-- The logged delegate `w` is the delegate `d` with a log. -/
def Holds (w : Logged δ) (d : δ) : Prop :=
  w.delegate = d

/-- Carries a call out and writes it down. -/
def note (call : DelegateCall) (act : Action δ α) : Action (Logged δ) α := fun w =>
  match act w.delegate with
  | .ok a d => .ok a ⟨d, w.log ++ [⟨call, none⟩]⟩
  | .error e d => .error e ⟨d, w.log ++ [⟨call, some e⟩]⟩

/-- A call that is written down, by what it does to the delegate. -/
theorem ends_note_iff (call : DelegateCall) (act : Action δ α) (w : Logged δ)
    {Q : α → Logged δ → Prop} {R : DbError → Logged δ → Prop} :
    Ends (note call act) w Q R ↔
      Ends act w.delegate (fun a d => Q a ⟨d, w.log ++ [⟨call, none⟩]⟩)
        fun e d => R e ⟨d, w.log ++ [⟨call, some e⟩]⟩ := by
  unfold Ends note
  cases act w.delegate <;> rfl

theorem ends_note (call : DelegateCall) (act : Action δ α) (w : Logged δ) :
    Ends (note call act) w (fun _ w' => w'.log = w.log ++ [⟨call, none⟩])
      fun e w' => w'.log = w.log ++ [⟨call, some e⟩] := by
  unfold Ends note
  cases act w.delegate <;> rfl

theorem simulates_note (call : DelegateCall) (act : Action δ α) :
    Simulates Holds (note call act) act := by
  rintro w _ rfl
  unfold note
  cases act w.delegate with
  | ok a d => exact .ok a (R := Holds) rfl
  | error e d => exact .error e (R := Holds) rfl

variable [Delegate δ]

instance : Delegate (Logged δ) where
  autoCommit := note .autoCommit Delegate.autoCommit
  setAutoCommit on := note (.call (.setAutoCommit on)) (Delegate.setAutoCommit on)
  commit := note (.call .commit) Delegate.commit
  rollback := note (.call .rollback) Delegate.rollback
  setSavepoint name := note (.call (.setSavepoint name)) (Delegate.setSavepoint name)
  rollbackTo s := note (.call (.rollbackTo s)) (Delegate.rollbackTo s)
  release s := note (.call (.release s)) (Delegate.release s)
  execute sql := note (.call (.execute sql)) (Delegate.execute sql)
  query sql := note (.call (.query sql)) (Delegate.query sql)
  close := note .close Delegate.close

/-- A logged delegate answers as the delegate does. -/
theorem logged_sim : DelegateSim (Holds (δ := δ)) where
  autoCommit := simulates_note _ _
  setAutoCommit _ := simulates_note _ _
  commit := simulates_note _ _
  rollback := simulates_note _ _
  setSavepoint _ := simulates_note _ _
  rollbackTo _ := simulates_note _ _
  release _ := simulates_note _ _
  execute _ := simulates_note _ _
  query _ := simulates_note _ _

/-- Every call is written down with its outcome. -/
theorem ends_carryOut (k : DelegateCall) (w : Logged δ) :
    Ends k.carryOut w (fun _ w' => w'.log = w.log ++ [⟨k, none⟩])
      fun e w' => w'.log = w.log ++ [⟨k, some e⟩] := by
  cases k with
  | autoCommit =>
    rw [DelegateCall.carryOut, ends_discard]
    exact ends_note _ _ w
  | close => exact ends_note _ _ w
  | call k =>
    rw [DelegateCall.carryOut, ends_discard]
    cases k <;> simp only [Delegate.perform, ends_bind, ends_pure] <;> exact ends_note _ _ w

end Logged

/-- The log of calls that have all succeeded. -/
def succeeded (ks : List DelegateCall) : List Attempt :=
  ks.map fun k => ⟨k, none⟩

/-- The log of calls out of `ks`, of which the last one made has failed with `e`. -/
def Cut (ks : List DelegateCall) (e : DbError) (log : List Attempt) : Prop :=
  ∃ front k back, ks = front ++ k :: back ∧ log = succeeded front ++ [⟨k, some e⟩]

/-- Calls carried out one after another, up to the first one that fails. -/
theorem ends_carryAll_logged [Delegate δ] (ks : List DelegateCall) (w : Logged δ) :
    Ends (carryAll ks) w (fun _ w' => w'.log = w.log ++ succeeded ks)
      fun e w' => ∃ log, Cut ks e log ∧ w'.log = w.log ++ log := by
  induction ks generalizing w with
  | nil => exact (List.append_nil w.log).symm
  | cons k rest ih =>
    rw [carryAll, ends_bind]
    refine (Logged.ends_carryOut k w).mono (fun _ w₁ h₁ => ?_) fun e w₁ h₁ => ?_
    · refine (ih w₁).mono (fun _ w₂ h₂ => ?_) fun e w₂ h₂ => ?_
      · rw [h₂, h₁, List.append_assoc]
        rfl
      · obtain ⟨log, ⟨front, k', back, rfl, rfl⟩, h₂⟩ := h₂
        refine ⟨_, ⟨k :: front, k', back, rfl, rfl⟩, ?_⟩
        rw [h₂, h₁, List.append_assoc]
        rfl
    · exact ⟨_, ⟨[], k, rest, rfl, rfl⟩, h₁⟩

theorem failure_of_mem_succeeded {ks : List DelegateCall} {x : Attempt} (hx : x ∈ succeeded ks) :
    x.failure = none := by
  obtain ⟨k, -, rfl⟩ := List.mem_map.1 hx
  rfl

/-- The failed call is the last one. -/
theorem Cut.last {ks : List DelegateCall} {e e' : DbError} {log front back : List Attempt} {x : Attempt}
    (h : Cut ks e log) (hlog : log = front ++ x :: back) (hx : x.failure = some e') :
    back = [] ∧ e' = e := by
  obtain ⟨done, k, rest, -, rfl⟩ := h
  rcases List.eq_nil_or_concat back with rfl | ⟨init, y, rfl⟩
  · obtain ⟨-, hlast⟩ := List.append_inj' hlog rfl
    obtain rfl : _ = x := List.head_eq_of_cons_eq hlast
    exact ⟨rfl, (Option.some.inj hx).symm⟩
  · -- a call in front of the last one has succeeded
    rw [List.concat_eq_append, ← List.cons_append, ← List.append_assoc] at hlog
    obtain ⟨hdone, -⟩ := List.append_inj' hlog rfl
    have hmem : x ∈ succeeded done := by simp [hdone]
    rw [failure_of_mem_succeeded hmem] at hx
    cases hx

theorem Cut.exists_failure {ks : List DelegateCall} {e : DbError} {log : List Attempt}
    (h : Cut ks e log) : ∃ x ∈ log, x.failure = some e := by
  obtain ⟨done, k, rest, -, rfl⟩ := h
  exact ⟨⟨k, some e⟩, by simp, rfl⟩

namespace Controller

/-- The controller over the logged delegate, with an empty log. -/
def logged (c : Controller δ) : Controller (Logged δ) :=
  { delegate := ⟨c.delegate, []⟩, autoCommit := c.autoCommit, smartCommit := c.smartCommit }

theorem above_logged (c : Controller δ) : Above Logged.Holds c.logged c :=
  ⟨rfl, rfl, rfl⟩

theorem eq_of_above_logged {c c' : Controller δ} (h : Above Logged.Holds c.logged c') : c' = c := by
  obtain ⟨hdelegate, hmode, hsmart⟩ := h
  obtain ⟨d, on, smart⟩ := c'
  obtain rfl : c.delegate = d := hdelegate
  obtain rfl : c.autoCommit = on := hmode
  obtain rfl : c.smartCommit = smart := hsmart
  rfl

/-- The calls that an action makes on the delegate, the earliest first. -/
def attempts (act : Action (Controller (Logged δ)) α) (c : Controller δ) : List Attempt :=
  (stateOf (act c.logged)).delegate.log

variable [Delegate δ]

/-- The log of an operation: nothing in front of a refusal, the whole script behind a success, and a
part of the script that ends with the failed call behind any other failure. -/
theorem ends_perform_logged (op : Op) (c : Controller δ) :
    Ends (perform op) c.logged (fun _ w => w.delegate.log = succeeded (c.logged.script op))
      fun e w => (c.refusal? op = some e ∧ w = c.logged) ∨
        Cut (c.logged.script op) e w.delegate.log ∧
          w.autoCommit = c.autoCommit ∧ w.smartCommit = c.smartCommit := by
  refine (ends_perform op).2 ?_
  cases hrefusal : c.refusal? op with
  | some e =>
    rw [show c.logged.refusal? op = some e from hrefusal]
    exact Or.inl ⟨rfl, rfl⟩
  | none =>
    rw [show c.logged.refusal? op = none from hrefusal]
    dsimp only
    rw [Carried, ends_onDelegate]
    refine (ends_carryAll_logged (c.logged.script op) ⟨c.delegate, []⟩).mono (fun _ w h => ?_) ?_
    · rw [Op.settle_delegate]
      exact h
    · rintro e w ⟨log, hcut, h⟩
      obtain rfl : w.log = log := h
      exact Or.inr ⟨hcut, rfl, rfl⟩

/-- **The law of errors**, for an action on `c` that has made the calls `log` and come to the result
`r`. -/
structure ErrorLaw (c : Controller δ) (log : List Attempt)
    (r : EStateM.Result DbError (Controller δ) α) : Prop where
  /-- A call that fails is the last one, and its error is the answer. -/
  last {front back : List Attempt} {x : Attempt} {e : DbError} :
    log = front ++ x :: back → x.failure = some e → back = [] ∧ answerOf r = .error e
  /-- A failure leaves both settings as they were. -/
  settings {e : DbError} : answerOf r = .error e →
    (stateOf r).autoCommit = c.autoCommit ∧ (stateOf r).smartCommit = c.smartCommit
  /-- An error that no call has failed with is a refusal of the controller's own, without any call. -/
  own {e : DbError} : answerOf r = .error e → (∀ x ∈ log, x.failure = none) →
    log = [] ∧ stateOf r = c ∧ c.autoCommit = true ∧ ∃ call, e = .inAutoCommit call

omit [Delegate δ] in
theorem ErrorLaw.of_ends {act : Action (Controller (Logged δ)) α} {act' : Action (Controller δ) α}
    {c : Controller δ} (ks : List DelegateCall)
    (hsim : Agree (Above Logged.Holds) (act c.logged) (act' c))
    (h : Ends act c.logged (fun _ w => w.delegate.log = succeeded ks)
      fun e w => ((c.autoCommit = true ∧ ∃ call, e = .inAutoCommit call) ∧ w = c.logged) ∨
        Cut ks e w.delegate.log ∧ w.autoCommit = c.autoCommit ∧ w.smartCommit = c.smartCommit) :
    ErrorLaw c (c.attempts act) (act' c) := by
  unfold Ends at h
  unfold attempts
  generalize act c.logged = r, act' c = r' at hsim h
  cases hsim with
  | @ok a w c' habove =>
    have hlog : w.delegate.log = succeeded ks := h
    refine ⟨fun heq hx => ?_, nofun, nofun⟩
    rw [show (stateOf (.ok a w : EStateM.Result DbError _ α)).delegate.log = _ from hlog] at heq
    rw [failure_of_mem_succeeded (x := _) (by rw [heq]; simp)] at hx
    cases hx
  | @error e w c' habove =>
    rcases h with ⟨⟨hon, call, hcall⟩, rfl⟩ | ⟨hcut, hmode, hsmart⟩
    · obtain rfl := eq_of_above_logged habove
      refine ⟨fun heq => ?_, fun _ => ⟨rfl, rfl⟩, fun he _ => ?_⟩
      · simp [stateOf, logged] at heq
      · cases he
        exact ⟨rfl, rfl, hon, call, hcall⟩
    · refine ⟨fun heq hx => ?_, fun _ => ?_, fun _ hnone => ?_⟩
      · obtain ⟨hback, rfl⟩ := hcut.last heq hx
        exact ⟨hback, rfl⟩
      · exact ⟨habove.autoCommit.symm.trans hmode, habove.smartCommit.symm.trans hsmart⟩
      · obtain ⟨x, hx, hfail⟩ := hcut.exists_failure
        rw [hnone x hx] at hfail
        cases hfail

omit [Delegate δ] in
/-- A single call. -/
theorem ErrorLaw.of_call (c : Controller δ) (k : DelegateCall) (act : Action δ α) :
    ErrorLaw c (c.attempts (onDelegate (Logged.note k act))) (onDelegate act c) := by
  refine .of_ends [k]
    (simulates_onDelegate (Logged.simulates_note k act) _ _ c.above_logged) ?_
  rw [ends_onDelegate]
  refine (Logged.ends_note k act ⟨c.delegate, []⟩).mono (fun _ w h => h) fun e w h => ?_
  exact Or.inr ⟨⟨[], k, [], rfl, h⟩, rfl, rfl⟩

theorem ErrorLaw.perform (op : Op) (c : Controller δ) :
    ErrorLaw c (c.attempts (perform op)) (perform op c) := by
  have hsim : Agree (Above Logged.Holds) (Controller.perform op c.logged) (Controller.perform op c) :=
    perform_simulates Logged.logged_sim op _ _ c.above_logged
  refine .of_ends _ hsim ((ends_perform_logged op c).mono (fun _ _ h => h) fun e w h => ?_)
  refine h.imp (fun hown => ⟨?_, hown.2⟩) id
  obtain ⟨hon, call, -, hcall⟩ := refusal?_eq_some.1 hown.1
  exact ⟨hon, call, hcall⟩

/-- A refusal comes before any call. -/
theorem attempts_of_refusal {op : Op} {c : Controller δ} {e : DbError} (h : c.refusal? op = some e) :
    c.attempts (perform op) = [] := by
  rw [attempts, perform_of_refusal (c := c.logged) h]
  rfl

end Controller

open Controller

/-- **Errors of the delegate go through as they are.** Over any delegate and in any state, a call that
fails is the last one that an operation makes, and the operation answers with the error of that call;
whatever an operation fails with, both settings are as they were; and an operation that the caller's
mode forbids is refused without any call, as are all that fail though no call has. The same goes for
the question for the delegate's flag, and for closing it. -/
theorem error_law [Delegate δ] (c : Controller δ) :
    (∀ op, ErrorLaw c (c.attempts (perform op)) (perform op c)) ∧
      (∀ op call, op.transactionCall? = some call → c.autoCommit = true →
        perform op c = .error (.inAutoCommit call) c ∧ c.attempts (perform op) = []) ∧
      ErrorLaw c (c.attempts delegateAutoCommit) (delegateAutoCommit c) ∧
      ErrorLaw c (c.attempts close) (close c) := by
  refine ⟨fun op => .perform op c, fun op call hcall hon => ?_, .of_call c _ _, .of_call c _ _⟩
  have hrefusal := refusal?_eq_some.2 ⟨hon, call, hcall, rfl⟩
  exact ⟨perform_of_refusal hrefusal, attempts_of_refusal hrefusal⟩

/-- A recorder that cannot commit: the commit of a write is the last call, and what it fails with is the
answer. -/
theorem failed_commit_ends_operation :
    let e : DbError := .reported .connection "gone"
    let start : Controller Recorder := ⟨{ autoCommit := true, failures := [(.commit, e)] }, true, true⟩
    let c := (run perform [.call (.setAutoCommit false), .call (.execute "DELETE FROM t")] start).2
    Reachable start.delegate c ∧
      c.attempts (perform (.call .commit)) = [⟨.autoCommit, none⟩, ⟨.call .commit, some e⟩] ∧
      answerOf (perform (.call .commit) c) = .error e ∧
      (stateOf (perform (.call .commit) c)).autoCommit = false := by
  intro e start c
  have hc : Reachable start.delegate c := .run _ (.wrap rfl)
  have hlog : c.attempts (perform (.call .commit)) =
      [⟨.autoCommit, none⟩, ⟨.call .commit, some e⟩] := by decide +kernel
  have hlaw := (error_law c).1 (.call .commit)
  have hlast : c.attempts (perform (.call .commit)) =
      [⟨.autoCommit, none⟩] ++ ⟨.call .commit, some e⟩ :: [] := hlog
  obtain ⟨-, hanswer⟩ := hlaw.last hlast rfl
  exact ⟨hc, hlog, hanswer, (hlaw.settings hanswer).1⟩

end DeferredTx.Session
