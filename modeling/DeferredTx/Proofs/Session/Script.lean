import DeferredTx.Proofs.Session.Lifetime
import DeferredTx.Proofs.Session.Watch

/-!
# The script of an operation

An operation of a controller is refused, or it makes calls on the delegate, one after another up to
the first one that fails, and changes a setting behind them. The calls are known in advance but for
the answer of the delegate when it is asked for its flag.

* `DelegateCall.carryOut`, `carryAll`: calls on a delegate, whatever they answer.
* `Controller.script`, `Controller.refusal?`, `Op.settle`: the calls of an operation, the error that it
  is refused with, and what it makes of the settings.
* `Controller.ends_perform`: **every operation follows its script.**
* `Controller.kept_perform`: what the calls of the script keep, the operation keeps.
* `Op.Makes`, `Controller.makes_of_mem_script`: the calls that an operation can make.
-/

namespace DeferredTx.Session

variable {δ α β : Type} [Delegate δ]

/-- Carries a call out, whatever it answers. -/
def DelegateCall.carryOut : DelegateCall → Action δ Unit
  | .autoCommit => discard Delegate.autoCommit
  | .call k => discard (Delegate.perform k)
  | .close => Delegate.close

/-- Carries calls out, one after another up to the first one that fails. -/
def carryAll : List DelegateCall → Action δ Unit
  | [] => pure ()
  | k :: rest => do
    k.carryOut
    carryAll rest

theorem carryAll_append (ks ls : List DelegateCall) :
    carryAll (δ := δ) (ks ++ ls) = (do carryAll ks; carryAll ls) := by
  induction ks with
  | nil => rfl
  | cons k rest ih =>
    funext d
    simp only [List.cons_append, carryAll, ih, bind, EStateM.bind]
    cases k.carryOut d <;> rfl

theorem kept_carryAll {P : δ → Prop} : ∀ {ks : List DelegateCall},
    (∀ k ∈ ks, Kept P k.carryOut) → Kept P (carryAll ks)
  | [], _ => fun _ h => h
  | k :: _, hks =>
    kept_bind (hks k List.mem_cons_self) fun _ =>
      kept_carryAll fun l hl => hks l (List.mem_cons_of_mem k hl)

/-- The call of the controller's that an operation is refused as, if the caller's mode is on. -/
def Op.transactionCall? : Op → Option TransactionCall
  | .call .commit => some .commit
  | .call .rollback => some .rollback
  | .call (.setSavepoint _) => some .setSavepoint
  | .call (.rollbackTo _) => some .rollbackToSavepoint
  | _ => none

/-- The call that an operation is to pass on; changes of the delegate's flag are the controller's. -/
def Op.own? : Op → Option Call
  | .call (.setAutoCommit _) => none
  | .call k => some k
  | .preparedExecute sql => some (.execute sql)
  | .preparedQuery sql => some (.query sql)
  | .setSmartCommit _ | .beforeExecute .. => none

/-- The calls that an operation can make: it asks for the delegate's flag, it changes the flag, and it
passes its own call on. -/
inductive Op.Makes (op : Op) : DelegateCall → Prop where
  | ask : op.Makes .autoCommit
  | turn (on : Bool) : op.Makes (.call (.setAutoCommit on))
  | pass {own : Call} : op.own? = some own → op.Makes (.call own)

/-- What an operation makes of the settings when its calls have succeeded. -/
def Op.settle (op : Op) (c : Controller δ) : Controller δ :=
  match op with
  | .call (.setAutoCommit on) => { c with autoCommit := on }
  | .setSmartCommit on => { c with smartCommit := on }
  | _ => c

omit [Delegate δ] in
theorem Op.settle_delegate (op : Op) (c : Controller δ) : (op.settle c).delegate = c.delegate := by
  unfold Op.settle
  split <;> rfl

namespace Controller

/-- The error that an operation is refused with. -/
def refusal? (c : Controller δ) (op : Op) : Option DbError :=
  if c.autoCommit then op.transactionCall?.map .inAutoCommit else none

/-- The question for the delegate's flag, and the calls behind it by the answer. Without an answer
there are none. -/
def asking (c : Controller δ) (next : Bool → List DelegateCall) : List DelegateCall :=
  .autoCommit ::
    match Delegate.autoCommit c.delegate with
    | .ok on _ => next on
    | .error .. => []

/-- The calls that take the delegate out of auto-commit, if there is `need` and the caller's mode is
off. -/
def suspending (c : Controller δ) (need : Bool) : List DelegateCall :=
  if c.autoCommit then []
  else c.asking fun on => if on && need then [.call (.setAutoCommit false)] else []

/-- The calls of a commit or a rollback. -/
def ending (c : Controller δ) (k : Call) : List DelegateCall :=
  if c.smartCommit then
    c.asking fun on => (if on then [] else [.call k]) ++ [.call (.setAutoCommit true)]
  else [.call k]

/-- The calls that an operation makes on the delegate if all goes well. -/
def script (c : Controller δ) : Op → List DelegateCall
  | .call (.setAutoCommit on) =>
    if c.autoCommit = on then [] else [.call (.setAutoCommit (on || c.smartCommit))]
  | .setSmartCommit on =>
    if c.smartCommit = on then []
    else if on then [.call (.setAutoCommit true)]
    else c.suspending true
  | .call .commit => c.ending .commit
  | .call .rollback => c.ending .rollback
  | .call (.setSavepoint name) => c.suspending true ++ [.call (.setSavepoint name)]
  | .call (.rollbackTo s) => c.asking fun on => if on then [] else [.call (.rollbackTo s)]
  | .call (.release s) => c.asking fun on => if on then [] else [.call (.release s)]
  | .call (.execute sql) => c.suspending (Statement.isWrite sql) ++ [.call (.execute sql)]
  | .call (.query sql) | .preparedQuery sql =>
    c.suspending (Statement.isWrite sql) ++ [.call (.query sql)]
  | .preparedExecute sql => c.suspending true ++ [.call (.execute sql)]
  | .beforeExecute sql always => c.suspending (always || Statement.isWrite sql)

section Follows

variable {Q : Controller δ → Prop} {R : DbError → Controller δ → Prop} {c : Controller δ}

/-- Behind calls on the delegate of `c`, either all have succeeded and `Q` holds of the controller, or
one has failed and `R` holds. -/
def Carried (ks : List DelegateCall) (c : Controller δ) (Q : Controller δ → Prop)
    (R : DbError → Controller δ → Prop) : Prop :=
  Ends (onDelegate (carryAll ks)) c (fun _ => Q) R

theorem carried_nil : Carried [] c Q R ↔ Q c := Iff.rfl

theorem carried_one (k : DelegateCall) :
    Carried [k] c Q R ↔ Ends (onDelegate k.carryOut) c (fun _ => Q) R := by
  simp only [Carried, carryAll, ends_onDelegate, ends_bind, ends_pure]

theorem carried_append (ks ls : List DelegateCall) :
    Carried (ks ++ ls) c Q R ↔ Carried ks c (fun c' => Carried ls c' Q R) R := by
  simp only [Carried, carryAll_append, ends_onDelegate, ends_bind]

theorem carried_call (k : Call) {act : Action δ α} {f : α → Reply}
    (hact : Delegate.perform k = (do return f (← act))) :
    Carried [.call k] c Q R ↔ Ends (onDelegate act) c (fun _ => Q) R := by
  simp only [carried_one, DelegateCall.carryOut, hact, ends_onDelegate, ends_discard, ends_bind,
    ends_pure]

theorem carried_setAutoCommit (on : Bool) :
    Carried [.call (.setAutoCommit on)] c Q R ↔ Ends (setDelegateAutoCommit on) c (fun _ => Q) R :=
  carried_call (.setAutoCommit on) (f := fun _ => .done) rfl

/-- The answer to the question says how to go on. -/
theorem carried_asking (next : Bool → List DelegateCall) :
    Carried (c.asking next) c Q R ↔
      Ends delegateAutoCommit c (fun on c' => Carried (next on) c' Q R) R := by
  simp only [Carried, asking, carryAll, delegateAutoCommit, DelegateCall.carryOut, ends_onDelegate,
    ends_bind, ends_discard]
  unfold Ends
  cases Delegate.autoCommit c.delegate <;> rfl

theorem carried_ite (p : Prop) [Decidable p] (ks ls : List DelegateCall) :
    Carried (if p then ks else ls) c Q R ↔ if p then Carried ks c Q R else Carried ls c Q R := by
  split <;> rfl

/-- The calls of a suspension, whatever there is need for it. -/
theorem carried_suspending (need : Bool) (hoff : c.autoCommit = false) :
    Carried (c.suspending need) c Q R ↔ Ends delegateAutoCommit c
      (fun on c' => if (on && need) = true then Ends (setDelegateAutoCommit false) c' (fun _ => Q) R
        else Q c') R := by
  simp only [suspending, hoff, Bool.false_eq_true, if_false, carried_asking, carried_ite,
    carried_nil, carried_setAutoCommit]

theorem beforeExecute_follows (sql : String) (always : Bool) :
    Ends (beforeExecute sql always) c (fun _ => Q) R ↔
      Carried (c.suspending (always || Statement.isWrite sql)) c Q R := by
  simp only [beforeExecute, ends_bind, ends_get, ends_ite, ends_pure]
  cases hon : c.autoCommit with
  | true => simp only [suspending, hon, if_true, carried_nil]; rfl
  | false =>
    rw [carried_suspending _ hon]
    refine Eq.to_iff (congrArg (Ends delegateAutoCommit c · R) ?_)
    funext on c'
    cases on <;> rfl

/-- A text that is passed on behind a suspension. -/
theorem forward_follows (sql : String) (always : Bool) (k : Call) {act : Action δ α} {f : α → Reply}
    (hact : Delegate.perform k = (do return f (← act))) :
    Ends (do beforeExecute sql always; onDelegate act) c (fun _ => Q) R ↔
      Carried (c.suspending (always || Statement.isWrite sql) ++ [.call k]) c Q R := by
  simp only [ends_bind, beforeExecute_follows, carried_append, carried_call k hact]

theorem setAutoCommit_follows (on : Bool) :
    Ends (setAutoCommit on) c (fun _ => Q) R ↔
      Carried (c.script (.call (.setAutoCommit on))) c
        (fun c' => Q { c' with autoCommit := on }) R := by
  simp only [setAutoCommit, ends_bind, ends_get, ends_ite, ends_pure, ends_modify, script,
    bne_iff_ne, ne_eq]
  by_cases h : c.autoCommit = on
  · rw [if_neg (by simpa using h), if_pos h, carried_nil, ← h]
  · rw [if_pos h, if_neg h, carried_setAutoCommit]

theorem setSmartCommit_follows (on : Bool) :
    Ends (setSmartCommit on) c (fun _ => Q) R ↔
      Carried (c.script (.setSmartCommit on)) c (fun c' => Q { c' with smartCommit := on }) R := by
  simp only [setSmartCommit, ends_bind, ends_get, ends_ite, ends_pure, ends_modify, script,
    bne_iff_ne, ne_eq]
  by_cases h : c.smartCommit = on
  · rw [if_neg (by simpa using h), if_pos h, carried_nil, ← h]
  rw [if_pos h, if_neg h]
  cases on with
  | true => exact (carried_setAutoCommit true).symm
  | false =>
    simp only [Bool.false_eq_true, if_false]
    cases hon : c.autoCommit with
    | true =>
      rw [suspending, if_pos hon, carried_nil, ← hon]
      simp [hon]
    | false =>
      rw [carried_suspending _ hon]
      simp only [Bool.and_true]
      rfl

theorem endTransaction_follows (call : TransactionCall) (k : Call) {act : Action δ Unit}
    (hact : Delegate.perform k = (do act; return .done)) :
    Ends (endTransaction call act) c (fun _ => Q) R ↔
      if c.autoCommit = true then R (.inAutoCommit call) c else Carried (c.ending k) c Q R := by
  have hk : ∀ {c : Controller δ} {Q : Controller δ → Prop},
      Carried [.call k] c Q R ↔ Ends (onDelegate act) c (fun _ => Q) R :=
    carried_call k (f := fun _ => .done) hact
  simp only [endTransaction, ending, ends_bind, ends_refuseInAutoCommit, ends_get, ends_ite]
  cases hsmart : c.smartCommit with
  | false => simp only [Bool.false_eq_true, if_false, hk]
  | true =>
    simp only [if_true, carried_asking]
    have hnext : ∀ (on : Bool) (c' : Controller δ),
        Carried ((if on then [] else [.call k]) ++ [.call (.setAutoCommit true)]) c' Q R ↔
          if (!on) = true then
            Ends (onDelegate act) c' (fun _ c₁ => Ends (setDelegateAutoCommit true) c₁ (fun _ => Q) R) R
          else Ends (setDelegateAutoCommit true) c' (fun _ => Q) R := by
      intro on c'
      simp only [carried_append, carried_ite, carried_nil, hk, carried_setAutoCommit]
      cases on <;> rfl
    simp only [hnext]

theorem unlessAutoCommit_follows (k : Call) {act : Action δ Unit}
    (hact : Delegate.perform k = (do act; return .done)) :
    Ends (do if !(← delegateAutoCommit) then onDelegate act) c (fun _ => Q) R ↔
      Carried (c.asking fun on => if on then [] else [.call k]) c Q R := by
  have hk : ∀ {c : Controller δ}, Carried [.call k] c Q R ↔ Ends (onDelegate act) c (fun _ => Q) R :=
    carried_call k (f := fun _ => .done) hact
  have hnext : ∀ (on : Bool) (c' : Controller δ), Carried (if on then [] else [.call k]) c' Q R ↔
      if (!on) = true then Ends (onDelegate act) c' (fun _ => Q) R else Q c' := by
    intro on c'
    simp only [carried_ite, carried_nil, hk]
    cases on <;> rfl
  simp only [ends_bind, ends_ite, ends_pure, carried_asking, hnext]

theorem setSavepoint_follows (name : Option String) :
    Ends (setSavepoint name) c (fun _ => Q) R ↔
      if c.autoCommit = true then R (.inAutoCommit .setSavepoint) c
      else Carried (c.suspending true ++ [.call (.setSavepoint name)]) c Q R := by
  have hk : ∀ {c : Controller δ}, Carried [.call (.setSavepoint name)] c Q R ↔
      Ends (onDelegate (Delegate.setSavepoint name)) c (fun _ => Q) R :=
    carried_call _ (f := Reply.savepoint) rfl
  simp only [setSavepoint, ends_bind, ends_refuseInAutoCommit, ends_ite]
  cases hoff : c.autoCommit with
  | true => rfl
  | false => simp only [carried_append, hk, carried_suspending _ hoff, Bool.and_true]

theorem rollbackTo_follows (s : Savepoint) :
    Ends (rollbackTo s) c (fun _ => Q) R ↔
      if c.autoCommit = true then R (.inAutoCommit .rollbackToSavepoint) c
      else Carried (c.asking fun on => if on then [] else [.call (.rollbackTo s)]) c Q R := by
  rw [rollbackTo, ends_bind, ends_refuseInAutoCommit, unlessAutoCommit_follows (.rollbackTo s) rfl]

omit [Delegate δ] in
/-- An operation that the caller's mode may refuse. -/
theorem refusable {op : Op} (call : TransactionCall) (hop : op.transactionCall? = some call)
    {P : Prop} :
    (match c.refusal? op with
      | some e => R e c
      | none => P) ↔ if c.autoCommit = true then R (.inAutoCommit call) c else P := by
  unfold refusal?
  rw [hop]
  cases c.autoCommit <;> rfl

omit [Delegate δ] in
/-- What a refusal is: the controller's own, of a call that the caller's mode forbids. -/
theorem refusal?_eq_some {op : Op} {e : DbError} :
    c.refusal? op = some e ↔
      c.autoCommit = true ∧ ∃ call, op.transactionCall? = some call ∧ e = .inAutoCommit call := by
  unfold refusal?
  cases c.autoCommit with
  | false => simp
  | true =>
    rw [if_pos rfl, Option.map_eq_some_iff]
    simp only [eq_comm, true_and]

omit [Delegate δ] in
theorem refusal?_eq_none (op : Op) (hop : op.transactionCall? = none) : c.refusal? op = none := by
  unfold refusal?
  rw [hop]
  cases c.autoCommit <;> rfl

/-- **Every operation follows its script.** It is refused in front of any call, or it carries out the
calls of its script. If all of them succeed, so does the operation, and the settings are changed; if
one fails, the operation fails with the error of that call and the settings are as they were. -/
theorem ends_perform (op : Op) :
    Ends (perform op) c (fun _ => Q) R ↔
      match c.refusal? op with
      | some e => R e c
      | none => Carried (c.script op) c (fun c' => Q (op.settle c')) R := by
  cases op with
  | setSmartCommit on =>
    simp only [perform, ends_bind, ends_pure, refusal?_eq_none (.setSmartCommit on) rfl]
    exact setSmartCommit_follows on
  | beforeExecute sql always =>
    simp only [perform, ends_bind, ends_pure, refusal?_eq_none (.beforeExecute sql always) rfl]
    exact beforeExecute_follows sql always
  | preparedExecute sql =>
    simp only [perform, ends_bind, ends_pure, refusal?_eq_none (.preparedExecute sql) rfl]
    exact forward_follows sql true (.execute sql) (f := Reply.count) rfl
  | preparedQuery sql =>
    simp only [perform, ends_bind, ends_pure, refusal?_eq_none (.preparedQuery sql) rfl]
    exact forward_follows sql false (.query sql) (f := Reply.rows) rfl
  | call k =>
    cases k with
    | setAutoCommit on =>
      simp only [perform, ends_bind, ends_pure, refusal?_eq_none (.call (.setAutoCommit on)) rfl]
      exact setAutoCommit_follows on
    | commit =>
      rw [refusable .commit rfl]
      simp only [perform, ends_bind, ends_pure]
      exact endTransaction_follows .commit .commit rfl
    | rollback =>
      rw [refusable .rollback rfl]
      simp only [perform, ends_bind, ends_pure]
      exact endTransaction_follows .rollback .rollback rfl
    | setSavepoint name =>
      rw [refusable .setSavepoint rfl]
      simp only [perform, ends_bind, ends_pure]
      exact setSavepoint_follows name
    | rollbackTo s =>
      rw [refusable .rollbackToSavepoint rfl]
      simp only [perform, ends_bind, ends_pure]
      exact rollbackTo_follows s
    | release s =>
      simp only [perform, ends_bind, ends_pure, refusal?_eq_none (.call (.release s)) rfl]
      exact unlessAutoCommit_follows (.release s) rfl
    | execute sql =>
      simp only [perform, ends_bind, ends_pure, refusal?_eq_none (.call (.execute sql)) rfl]
      exact forward_follows sql false (.execute sql) (f := Reply.count) rfl
    | query sql =>
      simp only [perform, ends_bind, ends_pure, refusal?_eq_none (.call (.query sql)) rfl]
      exact forward_follows sql false (.query sql) (f := Reply.rows) rfl

/-- Calls that keep a property of the delegate. -/
theorem carried_of_kept {P : δ → Prop} {ks : List DelegateCall} (hks : ∀ k ∈ ks, Kept P k.carryOut)
    (h : P c.delegate) (hQ : ∀ d, P d → Q { c with delegate := d })
    (hR : ∀ e d, P d → R e { c with delegate := d }) : Carried ks c Q R := by
  rw [Carried, ends_onDelegate]
  exact (kept_carryAll hks c.delegate h).mono (fun _ => hQ) hR

end Follows

theorem perform_of_refusal {op : Op} {c : Controller δ} {e : DbError} (h : c.refusal? op = some e) :
    perform op c = .error e c := by
  have hends : Ends (perform op) c (fun _ _ => False) fun e' c' => e' = e ∧ c' = c := by
    rw [ends_perform (Q := fun _ => False), h]
    exact ⟨rfl, rfl⟩
  unfold Ends at hends
  split at hends
  · exact hends.elim
  · rename_i hr
    rw [hr, hends.1, hends.2]

/-- **What the calls of the script keep, the operation keeps.** -/
theorem kept_perform {P : δ → Prop} {op : Op} {c : Controller δ}
    (h : ∀ k ∈ c.script op, Kept P k.carryOut) (hc : P c.delegate) :
    Ends (perform op) c (fun _ c' => P c'.delegate) fun _ c' => P c'.delegate := by
  refine (ends_perform (Q := fun c' => P c'.delegate) op).2 ?_
  split
  · exact hc
  · refine carried_of_kept h hc (fun d hd => ?_) fun _ d hd => hd
    rw [Op.settle_delegate]
    exact hd

section Makes

variable {c : Controller δ} {op : Op} {k : DelegateCall} {own : Call}

theorem makes_of_mem_asking {next : Bool → List DelegateCall} (hnext : ∀ on, ∀ l ∈ next on, op.Makes l)
    (h : k ∈ c.asking next) : op.Makes k := by
  rcases List.mem_cons.1 h with rfl | hmem
  · exact .ask
  · split at hmem
    · exact hnext _ k hmem
    · exact absurd hmem List.not_mem_nil

theorem makes_of_mem_suspending {need : Bool} (h : k ∈ c.suspending need) : op.Makes k := by
  unfold suspending at h
  split at h
  · exact absurd h List.not_mem_nil
  · refine makes_of_mem_asking (fun on l hl => ?_) h
    split at hl
    · rw [List.mem_singleton.1 hl]
      exact .turn false
    · exact absurd hl List.not_mem_nil

/-- What is passed on behind a suspension. -/
theorem makes_of_mem_passing {need : Bool} (hown : op.own? = some own)
    (h : k ∈ c.suspending need ++ [.call own]) : op.Makes k := by
  rcases List.mem_append.1 h with hfront | hlast
  · exact makes_of_mem_suspending hfront
  · rw [List.mem_singleton.1 hlast]
    exact .pass hown

theorem makes_of_mem_unless (hown : op.own? = some own) (on : Bool) :
    ∀ l ∈ (if on then [] else [.call own] : List DelegateCall), op.Makes l := by
  intro l hl
  split at hl
  · exact absurd hl List.not_mem_nil
  · rw [List.mem_singleton.1 hl]
    exact .pass hown

theorem makes_of_mem_ending (hown : op.own? = some own) (h : k ∈ c.ending own) : op.Makes k := by
  unfold ending at h
  split at h
  · refine makes_of_mem_asking (fun on l hl => ?_) h
    rcases List.mem_append.1 hl with hfront | hlast
    · exact makes_of_mem_unless hown on l hfront
    · rw [List.mem_singleton.1 hlast]
      exact .turn true
  · rw [List.mem_singleton.1 h]
    exact .pass hown

/-- **The calls of a script** are those that the operation can make. -/
theorem makes_of_mem_script (h : k ∈ c.script op) : op.Makes k := by
  cases op with
  | setSmartCommit on =>
    rw [script] at h
    split at h
    · exact absurd h List.not_mem_nil
    · split at h
      · rw [List.mem_singleton.1 h]
        exact .turn true
      · exact makes_of_mem_suspending h
  | beforeExecute sql always => exact makes_of_mem_suspending h
  | preparedExecute sql => exact makes_of_mem_passing rfl h
  | preparedQuery sql => exact makes_of_mem_passing rfl h
  | call k =>
    cases k with
    | setAutoCommit on =>
      rw [script] at h
      split at h
      · exact absurd h List.not_mem_nil
      · rw [List.mem_singleton.1 h]
        exact .turn _
    | commit => exact makes_of_mem_ending rfl h
    | rollback => exact makes_of_mem_ending rfl h
    | setSavepoint name => exact makes_of_mem_passing rfl h
    | rollbackTo s => exact makes_of_mem_asking (makes_of_mem_unless rfl) h
    | release s => exact makes_of_mem_asking (makes_of_mem_unless rfl) h
    | execute sql => exact makes_of_mem_passing rfl h
    | query sql => exact makes_of_mem_passing rfl h

end Makes

end Controller

end DeferredTx.Session
