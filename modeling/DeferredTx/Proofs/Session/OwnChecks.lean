import DeferredTx.Proofs.Session.PassThrough
import DeferredTx.Proofs.Session.Script

/-!
# The checks of a connection under a controller

A connection refuses the ends of a transaction and what is about savepoints while its flag is on. A
controller refuses them by the caller's mode, and switches the flag off where it has to. So the checks
of the connection are never reached.

* `Call.NeedsOff`: the calls that belong into a transaction.
* `MeetsOff`, `Controller.meetsOff_script`: calls one after another of which these meet the flag off,
  and that the script of an operation is made of such.
* `KeptOff`, `Controller.ends_perform_of_meetsOff`: what each of the calls keeps then, the operation
  keeps.
* `Watched.InOrder`, `Watched.kept_inOrder`: a log in which they have, kept by every operation.
* `Legal`, `Controller.ends_perform_legal`: what is not refused does not find the state illegal.
* `own_checks_unreachable`: **the caller's mode alone decides what is refused**, and a connection meets
  no such call while its flag is on.
-/

namespace DeferredTx.Session

open LawfulDelegate (flag)

variable {δ σ α β : Type}

/-- The calls that belong into a transaction: its ends, and what is done with savepoints. -/
def Call.NeedsOff : Call → Prop
  | .commit | .rollback | .setSavepoint _ | .rollbackTo _ | .release _ => True
  | .setAutoCommit _ | .execute _ | .query _ => False

/-- The same of the calls that a controller makes. -/
def DelegateCall.NeedsOff : DelegateCall → Prop
  | .call k => k.NeedsOff
  | .autoCommit | .close => False

/-- Calls that are made one after another on a delegate with the flag `on`: those that belong into a
transaction meet the flag off. -/
inductive MeetsOff : Bool → List DelegateCall → Prop where
  | done (on : Bool) : MeetsOff on []
  | ask {on : Bool} {ks : List DelegateCall} : MeetsOff on ks → MeetsOff on (.autoCommit :: ks)
  | turn {on on' : Bool} {ks : List DelegateCall} : MeetsOff on' ks →
      MeetsOff on (.call (.setAutoCommit on') :: ks)
  | pass {on : Bool} {k : Call} {ks : List DelegateCall} : (∀ on', k ≠ .setAutoCommit on') →
      (k.NeedsOff → on = false) → MeetsOff on ks → MeetsOff on (.call k :: ks)

theorem MeetsOff.last {on : Bool} {k : Call} (hk : ∀ on', k ≠ .setAutoCommit on')
    (hoff : k.NeedsOff → on = false) : MeetsOff on [.call k] :=
  .pass hk hoff (.done on)

/-- Calls of which none belongs into a transaction. -/
theorem MeetsOff.of_free {op : Op} (hop : ∀ k, op.own? = some k → ¬k.NeedsOff) :
    ∀ {ks : List DelegateCall} (on : Bool), (∀ k ∈ ks, op.Makes k) → MeetsOff on ks
  | [], on, _ => .done on
  | k :: ks, on, h => by
    have hrest : ∀ l ∈ ks, op.Makes l := fun l hl => h l (List.mem_cons_of_mem k hl)
    cases h k List.mem_cons_self with
    | ask => exact .ask (of_free hop on hrest)
    | turn on' => exact .turn (of_free hop on' hrest)
    | @pass own hown =>
      refine .pass (fun on' hset => ?_) (fun hneeds => absurd hneeds (hop own hown))
        (of_free hop on hrest)
      subst hset
      -- a change of the flag is none of the caller's own
      cases op with
      | call k => cases k <;> cases hown
      | setSmartCommit | beforeExecute | preparedExecute | preparedQuery => cases hown

section Script

variable [Delegate δ] [LawfulDelegate δ]

namespace Controller

variable {c : Controller δ}

/-- The delegate tells its flag when it is asked. -/
def Answers (d : δ) : Prop :=
  ∃ d', Delegate.autoCommit d = .ok (flag d) d'

theorem meetsOff_asking (h : Answers c.delegate) {next : Bool → List DelegateCall}
    (hnext : MeetsOff (flag c.delegate) (next (flag c.delegate))) :
    MeetsOff (flag c.delegate) (c.asking next) := by
  obtain ⟨d', hanswer⟩ := h
  unfold asking
  rw [hanswer]
  exact .ask hnext

/-- What is not passed on to a delegate in auto-commit. -/
theorem meetsOff_unless (h : Answers c.delegate) {k : Call} (hk : ∀ on', k ≠ .setAutoCommit on') :
    MeetsOff (flag c.delegate) (c.asking fun on => if on then [] else [.call k]) := by
  refine meetsOff_asking h ?_
  cases flag c.delegate with
  | true => exact .done true
  | false => exact .last hk fun _ => rfl

/-- A commit or a rollback. Without smart commit the flag is the caller's mode. -/
theorem meetsOff_ending (h : Answers c.delegate) (hsound : c.modes.Sound) (hoff : c.autoCommit = false)
    {k : Call} (hk : ∀ on', k ≠ .setAutoCommit on') :
    MeetsOff (flag c.delegate) (c.ending k) := by
  unfold ending
  split
  · refine meetsOff_asking h ?_
    cases flag c.delegate with
    | true => exact .turn (.done true)
    | false => exact .pass hk (fun _ => rfl) (.turn (.done true))
  · rename_i hplain
    have hsmart : c.smartCommit = false := by simpa using hplain
    have hflag : flag c.delegate = false := (hsound.delegate_eq_caller hsmart).trans hoff
    exact .last hk fun _ => hflag

/-- A new savepoint is made behind a suspension. -/
theorem meetsOff_marking (h : Answers c.delegate) (hoff : c.autoCommit = false) {k : Call}
    (hk : ∀ on', k ≠ .setAutoCommit on') :
    MeetsOff (flag c.delegate) (c.suspending true ++ [.call k]) := by
  obtain ⟨d', hanswer⟩ := h
  unfold suspending asking
  rw [hoff, hanswer]
  dsimp only
  cases flag c.delegate with
  | true => exact .ask (.turn (.last hk fun _ => rfl))
  | false => exact .ask (.last hk fun _ => rfl)

/-- **The script of an operation meets the flag off** where it has to, if the operation is not
refused. -/
theorem meetsOff_script (h : Answers c.delegate) (hsound : c.modes.Sound) {op : Op}
    (hallowed : c.refusal? op = none) : MeetsOff (flag c.delegate) (c.script op) := by
  have hoff : ∀ call, op.transactionCall? = some call → c.autoCommit = false := by
    intro call hcall
    cases hon : c.autoCommit with
    | false => rfl
    | true =>
      have hrefused := refusal?_eq_some.2 ⟨hon, call, hcall, rfl⟩
      rw [hallowed] at hrefused
      cases hrefused
  have hfree : (∀ k, op.own? = some k → ¬k.NeedsOff) → MeetsOff (flag c.delegate) (c.script op) :=
    fun hop => .of_free hop _ fun k hk => makes_of_mem_script hk
  cases op with
  | setSmartCommit | beforeExecute => exact hfree nofun
  | preparedExecute | preparedQuery => exact hfree (by rintro _ ⟨⟩ h; exact h)
  | call k =>
    cases k with
    | setAutoCommit on => exact hfree nofun
    | execute | query => exact hfree (by rintro _ ⟨⟩ h; exact h)
    | commit => exact meetsOff_ending h hsound (hoff _ rfl) nofun
    | rollback => exact meetsOff_ending h hsound (hoff _ rfl) nofun
    | setSavepoint name => exact meetsOff_marking h (hoff _ rfl) nofun
    | rollbackTo s => exact meetsOff_unless h nofun
    | release s => exact meetsOff_unless h nofun

end Controller

/-- Only a change of the flag changes it. -/
theorem keeps_flag_perform {k : Call} (hk : ∀ on, k ≠ .setAutoCommit on) :
    Keeps flag (Delegate.perform (δ := δ) k) := by
  intro d
  cases k with
  | setAutoCommit on => exact absurd rfl (hk on)
  | commit => simpa only [Delegate.perform, ends_bind, ends_pure] using LawfulDelegate.commit d
  | rollback => simpa only [Delegate.perform, ends_bind, ends_pure] using LawfulDelegate.rollback d
  | setSavepoint name =>
    simpa only [Delegate.perform, ends_bind, ends_pure] using LawfulDelegate.setSavepoint name d
  | rollbackTo s =>
    simpa only [Delegate.perform, ends_bind, ends_pure] using LawfulDelegate.rollbackTo s d
  | release s => simpa only [Delegate.perform, ends_bind, ends_pure] using LawfulDelegate.release s d
  | execute sql =>
    simpa only [Delegate.perform, ends_bind, ends_pure] using LawfulDelegate.execute sql d
  | query sql => simpa only [Delegate.perform, ends_bind, ends_pure] using LawfulDelegate.query sql d

/-- A call and the calls behind it, which meet the flag that it leaves. -/
theorem ends_carryAll_cons {P : δ → Prop} {R : DbError → δ → Prop} {k : DelegateCall}
    {ks : List DelegateCall} {d : δ} {on : Bool} (hstep : Ends k.carryOut d (fun _ => P) R)
    (hflag : Ends k.carryOut d (fun _ d' => flag d' = on) fun _ _ => True)
    (hrest : ∀ {d' : δ}, flag d' = on → P d' → Ends (carryAll ks) d' (fun _ => P) R) :
    Ends (carryAll (k :: ks)) d (fun _ => P) R := by
  rw [carryAll, ends_bind]
  exact (hstep.and hflag).mono (fun _ _ h => hrest h.2 h.1) fun _ _ h => h.1

/-- Every call that meets the flag off where it has to keeps `P`, and leaves `R` behind if it fails. -/
def KeptOff (P : δ → Prop) (R : DbError → δ → Prop) : Prop :=
  ∀ (k : DelegateCall) (d : δ), P d → (k.NeedsOff → flag d = false) → Ends k.carryOut d (fun _ => P) R

/-- **What every call keeps that meets the flag off where it has to**, the calls together keep, and all
that holds behind a failure of one holds behind a failure of them. -/
theorem ends_carryAll_of_meetsOff {P : δ → Prop} {R : DbError → δ → Prop} (hstep : KeptOff P R)
    {on : Bool} {ks : List DelegateCall} (hks : MeetsOff on ks) :
    ∀ {d : δ}, flag d = on → P d → Ends (carryAll ks) d (fun _ => P) R := by
  -- carried along with `P`: the flag of the delegate is the one that the next call is to meet
  induction hks with
  | done on => exact fun _ hd => hd
  | ask _ ih =>
    rintro d rfl hd
    refine ends_carryAll_cons (hstep .autoCommit d hd False.elim) ?_ ih
    rw [DelegateCall.carryOut, ends_discard]
    exact (LawfulDelegate.autoCommit d).mono (fun _ _ h => h.2) fun _ _ _ => trivial
  | @turn _ on' _ _ ih =>
    intro d _ hd
    refine ends_carryAll_cons (hstep (.call (.setAutoCommit on')) d hd False.elim) ?_ ih
    simp only [DelegateCall.carryOut, Delegate.perform, ends_discard, ends_bind, ends_pure]
    exact (LawfulDelegate.setAutoCommit on' d).mono (fun _ _ h => h) fun _ _ _ => trivial
  | @pass _ k _ hk hoff _ ih =>
    rintro d rfl hd
    refine ends_carryAll_cons (hstep (.call k) d hd hoff) ?_ ih
    rw [DelegateCall.carryOut, ends_discard]
    exact (keeps_flag_perform hk d).mono (fun _ _ h => h) fun _ _ _ => trivial

/-- The same for an operation that is not refused. -/
theorem Controller.ends_perform_of_meetsOff {P : δ → Prop} {R : DbError → δ → Prop}
    (hstep : KeptOff P R) {c : Controller δ} (h : Answers c.delegate) (hsound : c.modes.Sound)
    {op : Op} (hallowed : c.refusal? op = none) (hc : P c.delegate) :
    Ends (perform op) c (fun _ c' => P c'.delegate) fun e c' => R e c'.delegate := by
  rw [ends_perform (Q := fun c' => P c'.delegate), hallowed]
  dsimp only
  rw [Carried, ends_onDelegate]
  have hcalls := ends_carryAll_of_meetsOff hstep (meetsOff_script h hsound hallowed) rfl hc
  refine hcalls.mono (fun _ d hd => ?_) fun _ _ hd => hd
  rw [Op.settle_delegate]
  exact hd

namespace Watched

/-- Every call is written down with the flag that it has met. -/
theorem ends_carryOut (k : DelegateCall) (w : Watched δ) :
    Ends k.carryOut w (fun _ w' => w'.log = w.log ++ [⟨k, flag w, none⟩])
      fun e w' => w'.log = w.log ++ [⟨k, flag w, some e⟩] := by
  have hwatch : ∀ {α : Type} (act : Action δ α), Ends (watch k act) w
      (fun _ w' => w'.log = w.log ++ [⟨k, flag w, none⟩])
      fun e w' => w'.log = w.log ++ [⟨k, flag w, some e⟩] := by
    intro α act
    rw [ends_watch]
    unfold Ends
    cases act w.delegate <;> rfl
  cases k with
  | autoCommit =>
    rw [DelegateCall.carryOut, ends_discard]
    exact hwatch _
  | close => exact hwatch _
  | call k =>
    rw [DelegateCall.carryOut, ends_discard]
    cases k <;> simp only [Delegate.perform, ends_bind, ends_pure] <;> exact hwatch _

/-- The calls so far that belong into a transaction have met the flag off. -/
def InOrder (w : Watched δ) : Prop :=
  ∀ x ∈ w.log, x.call.NeedsOff → x.flag = false

theorem keptOff_inOrder : KeptOff (InOrder (δ := δ)) fun _ => InOrder := by
  intro k w h hk
  have hlog : ∀ failure, ∀ w' : Watched δ, w'.log = w.log ++ [⟨k, flag w, failure⟩] → w'.InOrder := by
    intro failure w' hw' x hx
    rw [hw'] at hx
    rcases List.mem_append.1 hx with hold | hlast
    · exact h x hold
    · rw [List.mem_singleton.1 hlast]
      exact hk
  exact (ends_carryOut k w).mono (fun _ => hlog none) fun e => hlog (some e)

end Watched

end Script

section Reached

variable [Database σ]

/-- An action that never finds a state illegal. -/
def Legal {τ : Type} (act : Action τ α) : Prop :=
  ∀ s, Ends act s (fun _ _ => True) fun e _ => e.kind ≠ .illegalState

theorem legal_bind {τ : Type} {act : Action τ α} {f : α → Action τ β} (h : Legal act)
    (hf : ∀ a, Legal (f a)) : Legal (act >>= f) := by
  intro s
  rw [ends_bind]
  exact (h s).mono (fun a s' _ => hf a s') fun _ _ h => h

namespace Connection

omit [Database σ] in
theorem legal_onDatabase (act : EStateM StatementError σ α) : Legal (onDatabase act) := by
  intro c
  rw [ends_onDatabase]
  cases act c.database with
  | ok a s => trivial
  | error e s => cases e <;> exact nofun

theorem legal_send (r : Request) : Legal (send (σ := σ) r) :=
  legal_onDatabase _

theorem legal_ensureTransaction : Legal (ensureTransaction (σ := σ)) := by
  intro c
  simp only [ensureTransaction, ends_bind, ends_get, ends_ite, ends_discard, ends_modify, ends_pure]
  split
  · exact legal_send .begin c
  · trivial

theorem legal_endTransaction (r : Request) : Legal (endTransaction (σ := σ) r) := by
  intro c
  simp only [endTransaction, ends_bind, ends_get, ends_ite, ends_discard, ends_modify, ends_pure]
  split
  · exact legal_send r c
  · trivial

omit [Database σ] in
theorem legal_refuseBadName (name : Option String) : Legal (refuseBadName (σ := σ) name) := by
  intro c
  unfold refuseBadName
  split
  · exact nofun
  · trivial

omit [Database σ] in
/-- A call that is made with the flag off passes the check. -/
theorem ends_passing (call : TransactionCall) {act : Action (Connection σ) α} {c : Connection σ}
    (hoff : c.autoCommit = false) (hact : Legal act) :
    Ends (do refuseInAutoCommit call; act) c (fun _ _ => True) fun e _ => e.kind ≠ .illegalState := by
  rw [ends_bind, ends_refuseInAutoCommit, if_neg (by simp [hoff])]
  exact hact c

/-- A call that meets the flag off where it has to does not find the state illegal. -/
theorem ends_perform_legal {k : Call} {c : Connection σ} (hk : k.NeedsOff → c.autoCommit = false) :
    Ends (Delegate.perform k) c (fun _ _ => True) fun e _ => e.kind ≠ .illegalState := by
  cases k with
  | setAutoCommit on =>
    simp only [Delegate.perform, Delegate.setAutoCommit, ends_bind, ends_ite, ends_modify, ends_pure]
    split
    · exact legal_endTransaction .commit c
    · trivial
  | commit =>
    rw [Delegate.perform, ends_bind]
    exact ends_passing .commit (hk trivial) (legal_endTransaction .commit)
  | rollback =>
    rw [Delegate.perform, ends_bind]
    exact ends_passing .rollback (hk trivial) (legal_endTransaction .rollback)
  | setSavepoint name =>
    rw [Delegate.perform, ends_bind]
    refine ends_passing .setSavepoint (hk trivial) (legal_bind (legal_refuseBadName name) fun _ => ?_)
    refine legal_bind legal_ensureTransaction fun _ c' => ?_
    simp only [ends_bind, ends_modify, ends_get, ends_discard, ends_pure]
    exact legal_send _ _
  | rollbackTo s =>
    rw [Delegate.perform, ends_bind]
    refine ends_passing .rollbackToSavepoint (hk trivial) fun c' => ?_
    rw [ends_discard]
    exact legal_send _ c'
  | release s =>
    simp only [Delegate.perform, Delegate.release, ends_bind, ends_discard, ends_pure]
    exact legal_send _ c
  | execute sql =>
    rw [Delegate.perform, ends_bind]
    exact legal_bind legal_ensureTransaction (fun _ => legal_send _) c
  | query sql =>
    rw [Delegate.perform, ends_bind]
    exact legal_bind legal_ensureTransaction (fun _ => legal_onDatabase _) c

theorem answers (c : Connection σ) : Controller.Answers c :=
  ⟨c, rfl⟩

end Connection

/-- In a state that operations lead to, one that is not refused does not find the state illegal. -/
theorem Controller.ends_perform_legal {c : Controller (Connection σ)} (hsound : c.modes.Sound) {op : Op}
    (hallowed : c.refusal? op = none) :
    Ends (perform op) c (fun _ _ => True) fun e _ => e.kind ≠ .illegalState := by
  have hstep : KeptOff (fun _ : Connection σ => True) fun e _ => e.kind ≠ .illegalState := by
    intro k d _ hk
    cases k with
    | autoCommit => trivial
    | close => exact Connection.legal_onDatabase _ d
    | call own =>
      rw [DelegateCall.carryOut, ends_discard]
      exact Connection.ends_perform_legal hk
  exact ends_perform_of_meetsOff hstep (Connection.answers _) hsound hallowed trivial

/-- Whatever is done with a controller over a watched connection, the log stays in order. -/
theorem Watched.kept_inOrder (op : Op) :
    Kept (fun w : Controller (Watched (Connection σ)) => w.modes.Sound ∧ w.delegate.InOrder)
      (Controller.perform op) := by
  refine kept_of_stateOf fun w h => ⟨h.1.perform op, ?_⟩
  cases hrefused : w.refusal? op with
  | some e =>
    rw [Controller.perform_of_refusal hrefused]
    exact h.2
  | none =>
    have hanswer : Controller.Answers w.delegate := ⟨_, rfl⟩
    have hends : Ends (Controller.perform op) w (fun _ w' => w'.delegate.InOrder)
        fun _ w' => w'.delegate.InOrder :=
      Controller.ends_perform_of_meetsOff keptOff_inOrder hanswer h.1 hrefused h.2
    exact hends.state

/-- **The caller's mode alone decides what is refused.** In every reachable state of a controller over
a connection, whatever the database does, an operation finds the state illegal exactly if the caller's
mode is on and the operation is a commit, a rollback, a new savepoint or a return to one; then no call
is made on the connection, and nothing has changed. In every run from there, the ends of a transaction
and what is about savepoints meet the flag of the connection off, so that its own checks refuse
nothing. With the caller's mode on, a release does nothing. -/
theorem own_checks_unreachable {d : Connection (Tapped σ)} {c : Controller (Connection (Tapped σ))}
    (hc : Reachable d c) :
    (∀ op, (∃ e c', Controller.perform op c = .error e c' ∧ e.kind = .illegalState) ↔
        c.autoCommit = true ∧ op.transactionCall?.isSome) ∧
      (∀ op call, op.transactionCall? = some call → c.autoCommit = true →
        Controller.perform op c = .error (.inAutoCommit call) c ∧ c.calls op = []) ∧
      (∀ ops, (run Controller.perform ops c.watch).2.delegate.InOrder) ∧
      ∀ s, c.autoCommit = true →
        Controller.perform (.call (.release s)) c = .ok .done c := by
  have hsound := hc.sound
  have hrefused : ∀ op call, op.transactionCall? = some call → c.autoCommit = true →
      c.refusal? op = some (.inAutoCommit call) := fun op call hop hon =>
    Controller.refusal?_eq_some.2 ⟨hon, call, hop, rfl⟩
  refine ⟨fun op => ⟨?_, ?_⟩, fun op call hop hon => ⟨?_, ?_⟩, fun ops => ?_, fun s hon => ?_⟩
  · rintro ⟨e, c', hfailed, hkind⟩
    cases hrefusal : c.refusal? op with
    | some e' =>
      obtain ⟨hon, call, hop, -⟩ := Controller.refusal?_eq_some.1 hrefusal
      exact ⟨hon, by simp [hop]⟩
    | none => exact absurd hkind ((Controller.ends_perform_legal hsound hrefusal).of_error hfailed)
  · rintro ⟨hon, hop⟩
    obtain ⟨call, hcall⟩ := Option.isSome_iff_exists.1 hop
    exact ⟨_, c, Controller.perform_of_refusal (hrefused op call hcall hon), rfl⟩
  · exact Controller.perform_of_refusal (hrefused op call hop hon)
  · have hwatched : c.watch.refusal? op = some (.inAutoCommit call) := hrefused op call hop hon
    rw [Controller.calls, Controller.perform_of_refusal hwatched]
    rfl
  · have hstart : c.watch.modes.Sound ∧ c.watch.delegate.InOrder := ⟨hsound, List.forall_mem_nil _⟩
    exact (kept_run (fun op _ => Watched.kept_inOrder op) hstart).2
  · -- a caller in auto-commit has the connection in auto-commit
    have hflag : c.delegate.autoCommit = true := hsound.on_of_caller hon
    obtain ⟨⟨database, kind, on, inTransaction, savepoints⟩, caller, smart⟩ := c
    obtain rfl : on = true := hflag
    rfl

/-- Without smart commit a commit is passed on without a look at the flag, which is off. In auto-commit
it is refused, and a release does nothing. -/
theorem commit_meets_flag_off :
    let d : Connection (Tapped Store) := { database := ⟨{}, []⟩, kind := .sqlite }
    let c := (run Controller.perform [.setSmartCommit false, .call (.setAutoCommit false)]
      ⟨d, true, true⟩).2
    let ops : List Op := [.call (.execute "CREATE TABLE t (a INTEGER)"), .call .commit]
    let c₂ : Controller (Connection (Tapped Store)) := ⟨d, true, true⟩
    (Reachable d c ∧ (run Controller.perform ops c.watch).2.delegate.log =
        [⟨.autoCommit, false, none⟩, ⟨.call (.execute "CREATE TABLE t (a INTEGER)"), false, none⟩,
          ⟨.call .commit, false, none⟩] ∧
      (run Controller.perform ops c.watch).2.delegate.InOrder) ∧
      Reachable d c₂ ∧ c₂.autoCommit = true ∧
      Controller.perform (.call .commit) c₂ = .error (.inAutoCommit .commit) c₂ ∧
      Controller.perform (.call (.release ⟨1, none⟩)) c₂ = .ok .done c₂ := by
  intro d c ops c₂
  have hc : Reachable d c := .run _ (.wrap rfl)
  have hc₂ : Reachable d c₂ := .wrap rfl
  obtain ⟨-, -, horder, -⟩ := own_checks_unreachable hc
  obtain ⟨-, hrefused, -, hrelease⟩ := own_checks_unreachable hc₂
  exact ⟨⟨hc, by decide +kernel, horder ops⟩, hc₂, rfl,
    (hrefused (.call .commit) .commit rfl rfl).1, hrelease _ rfl⟩

end Reached

end DeferredTx.Session
