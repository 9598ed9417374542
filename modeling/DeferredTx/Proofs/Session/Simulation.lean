import DeferredTx.Proofs.Session.Outcome

/-!
# Simulation between delegates

Two delegates that answer every call alike cannot be told apart by the controller above them.

* `Agree`, `Simulates`: two results, and two actions, with the same outcome and related states.
* `DelegateSim`: two delegates of which every method agrees.
* `Above`: the relation of two controllers over related delegates.
* `perform_simulates`: every operation of a controller agrees over related delegates.
-/

namespace DeferredTx.Session

variable {σ τ α β : Type}

/-- The same value or the same error, with related states left behind. -/
inductive Agree (R : σ → τ → Prop) :
    EStateM.Result DbError σ α → EStateM.Result DbError τ α → Prop where
  | ok (a : α) {s : σ} {t : τ} : R s t → Agree R (.ok a s) (.ok a t)
  | error (e : DbError) {s : σ} {t : τ} : R s t → Agree R (.error e s) (.error e t)

/-- Results that agree leave related states behind. -/
theorem Agree.state {R : σ → τ → Prop} {r : EStateM.Result DbError σ α}
    {r' : EStateM.Result DbError τ α} (h : Agree R r r') : R (stateOf r) (stateOf r') := by
  cases h with
  | ok _ h => exact h
  | error _ h => exact h

theorem Agree.answer {R : σ → τ → Prop} {r : EStateM.Result DbError σ α}
    {r' : EStateM.Result DbError τ α} (h : Agree R r r') : answerOf r = answerOf r' := by
  cases h with
  | ok _ _ => rfl
  | error _ _ => rfl

/-- Both have succeeded, or both have failed. -/
theorem Agree.outcome {R : σ → τ → Prop} {r : EStateM.Result DbError σ α}
    {r' : EStateM.Result DbError τ α} (h : Agree R r r') :
    (∃ a s t, r = .ok a s ∧ r' = .ok a t ∧ R s t) ∨
      ∃ e s t, r = .error e s ∧ r' = .error e t ∧ R s t := by
  cases h with
  | ok a h => exact .inl ⟨a, _, _, rfl, rfl, h⟩
  | error e h => exact .inr ⟨e, _, _, rfl, rfl, h⟩

theorem Agree.mono {R R' : σ → τ → Prop} {r : EStateM.Result DbError σ α}
    {r' : EStateM.Result DbError τ α} (h : Agree R r r') (hR : ∀ s t, R s t → R' s t) :
    Agree R' r r' := by
  cases h with
  | ok a h => exact .ok a (hR _ _ h)
  | error e h => exact .error e (hR _ _ h)

/-- Two answers agree if they are made from answers that do. -/
theorem Agree.bind_pure {R : σ → τ → Prop} {act : Action σ α} {act' : Action τ α} {s : σ} {t : τ}
    (h : Agree R (act s) (act' t)) (f : α → β) :
    Agree R ((act >>= fun a => pure (f a)) s) ((act' >>= fun a => pure (f a)) t) := by
  simp only [bind, EStateM.bind]
  generalize act s = r, act' t = r' at h
  cases h with
  | ok a hst => exact .ok (f a) hst
  | error e hst => exact .error e hst

theorem agree_discard {R : σ → τ → Prop} {act : Action σ α} {act' : Action τ α} {s : σ} {t : τ}
    (h : Agree R (act s) (act' t)) : Agree R (discard act s) (discard act' t) := by
  simp only [discard, Functor.mapConst, Function.comp_apply, EStateM.map]
  generalize act s = r, act' t = r' at h
  cases h with
  | ok a hst => exact .ok _ hst
  | error e hst => exact .error e hst

/-- From related states two actions agree. -/
def Simulates (R : σ → τ → Prop) (act : Action σ α) (act' : Action τ α) : Prop :=
  ∀ s t, R s t → Agree R (act s) (act' t)

section Rules

variable {R : σ → τ → Prop} {act : Action σ α} {act' : Action τ α}

theorem simulates_pure (a : α) : Simulates R (pure a) (pure a) :=
  fun _ _ h => .ok a h

theorem simulates_throw (e : DbError) : Simulates R (throw e : Action σ α) (throw e) :=
  fun _ _ h => .error e h

theorem simulates_bind {f : α → Action σ β} {f' : α → Action τ β} (h : Simulates R act act')
    (hf : ∀ a, Simulates R (f a) (f' a)) : Simulates R (act >>= f) (act' >>= f') := by
  intro s t hst
  have hr := h s t hst
  simp only [bind, EStateM.bind]
  generalize act s = r, act' t = r' at hr
  cases hr with
  | ok a hst' => exact hf a _ _ hst'
  | error e hst' => exact .error e hst'

theorem simulates_discard (h : Simulates R act act') : Simulates R (discard act) (discard act') :=
  fun s t hst => agree_discard (h s t hst)

theorem Simulates.symm (h : Simulates R act act') : Simulates (fun t s => R s t) act' act := by
  intro t s hst
  have hr := h s t hst
  generalize act s = r, act' t = r' at hr
  cases hr with
  | ok a hst' => exact .ok a (R := fun t s => R s t) hst'
  | error e hst' => exact .error e (R := fun t s => R s t) hst'

/-- A program that begins by looking at its state. -/
theorem simulates_get {f : σ → Action σ α} {f' : τ → Action τ α}
    (h : ∀ s t, R s t → Simulates R (f s) (f' t)) : Simulates R (get >>= f) (get >>= f') :=
  fun s t hst => h s t hst s t hst

theorem simulates_modify {f : σ → σ} {f' : τ → τ} (h : ∀ s t, R s t → R (f s) (f' t)) :
    Simulates R (modify f : Action σ PUnit) (modify f') :=
  fun s t hst => Agree.ok (PUnit.unit : PUnit) (h s t hst)

theorem simulates_ite (p : Prop) [Decidable p] {no : Action σ α} {no' : Action τ α}
    (h : Simulates R act act') (hno : Simulates R no no') :
    Simulates R (if p then act else no) (if p then act' else no') := by
  split
  · exact h
  · exact hno

end Rules

variable {δ ε : Type}

/-- Two controllers with the same settings over related delegates. -/
structure Above (R : δ → ε → Prop) (c : Controller δ) (c' : Controller ε) : Prop where
  delegate : R c.delegate c'.delegate
  autoCommit : c.autoCommit = c'.autoCommit
  smartCommit : c.smartCommit = c'.smartCommit

namespace Controller

variable {R : δ → ε → Prop}

theorem simulates_onDelegate {act : Action δ α} {act' : Action ε α} (h : Simulates R act act') :
    Simulates (Above R) (onDelegate act) (onDelegate act') := by
  intro c c' hc
  have hr := h _ _ hc.delegate
  simp only [onDelegate]
  generalize act c.delegate = r, act' c'.delegate = r' at hr
  cases hr with
  | ok a hd => exact .ok a ⟨hd, hc.autoCommit, hc.smartCommit⟩
  | error e hd => exact .error e ⟨hd, hc.autoCommit, hc.smartCommit⟩

theorem simulates_refuseInAutoCommit (call : TransactionCall) :
    Simulates (Above R) (refuseInAutoCommit call) (refuseInAutoCommit call) := by
  refine simulates_get fun c c' hc => ?_
  rw [hc.autoCommit]
  exact simulates_ite _ (simulates_throw _) (simulates_pure _)

end Controller

variable [Delegate δ] [Delegate ε]

/-- Two delegates of which every method that a controller's operations call agrees. -/
structure DelegateSim (R : δ → ε → Prop) : Prop where
  autoCommit : Simulates R Delegate.autoCommit Delegate.autoCommit
  setAutoCommit (on : Bool) : Simulates R (Delegate.setAutoCommit on) (Delegate.setAutoCommit on)
  commit : Simulates R Delegate.commit Delegate.commit
  rollback : Simulates R Delegate.rollback Delegate.rollback
  setSavepoint (name : Option String) :
    Simulates R (Delegate.setSavepoint name) (Delegate.setSavepoint name)
  rollbackTo (s : Savepoint) : Simulates R (Delegate.rollbackTo s) (Delegate.rollbackTo s)
  release (s : Savepoint) : Simulates R (Delegate.release s) (Delegate.release s)
  execute (sql : String) : Simulates R (Delegate.execute sql) (Delegate.execute sql)
  query (sql : String) : Simulates R (Delegate.query sql) (Delegate.query sql)

theorem DelegateSim.symm {R : δ → ε → Prop} (hR : DelegateSim R) : DelegateSim fun e d => R d e where
  autoCommit := hR.autoCommit.symm
  setAutoCommit on := (hR.setAutoCommit on).symm
  commit := hR.commit.symm
  rollback := hR.rollback.symm
  setSavepoint name := (hR.setSavepoint name).symm
  rollbackTo s := (hR.rollbackTo s).symm
  release s := (hR.release s).symm
  execute sql := (hR.execute sql).symm
  query sql := (hR.query sql).symm

namespace Controller

variable {R : δ → ε → Prop} (hR : DelegateSim R)
include hR

theorem simulates_delegateAutoCommit :
    Simulates (Above R) delegateAutoCommit delegateAutoCommit :=
  simulates_onDelegate hR.autoCommit

theorem simulates_setDelegateAutoCommit (on : Bool) :
    Simulates (Above R) (setDelegateAutoCommit on) (setDelegateAutoCommit on) :=
  simulates_onDelegate (hR.setAutoCommit on)

theorem simulates_beforeExecute (sql : String) (always : Bool) :
    Simulates (Above R) (beforeExecute sql always) (beforeExecute sql always) := by
  refine simulates_get fun c c' hc => ?_
  rw [hc.autoCommit]
  refine simulates_ite _ ?_ (simulates_pure _)
  refine simulates_bind (simulates_delegateAutoCommit hR) fun on => ?_
  refine simulates_ite _ ?_ (simulates_pure _)
  exact simulates_ite _ (simulates_setDelegateAutoCommit hR false) (simulates_pure _)

theorem simulates_setAutoCommit (on : Bool) :
    Simulates (Above R) (setAutoCommit on) (setAutoCommit on) := by
  refine simulates_get fun c c' hc => ?_
  rw [hc.autoCommit, hc.smartCommit]
  refine simulates_ite _ ?_ (simulates_pure _)
  refine simulates_bind (simulates_setDelegateAutoCommit hR _) fun _ => ?_
  exact simulates_modify fun _ _ h => ⟨h.delegate, rfl, h.smartCommit⟩

theorem simulates_setSmartCommit (on : Bool) :
    Simulates (Above R) (setSmartCommit on) (setSmartCommit on) := by
  have hlast : Simulates (Above R) (modify fun c => { c with smartCommit := on })
      (modify fun c => { c with smartCommit := on }) :=
    simulates_modify fun _ _ h => ⟨h.delegate, h.autoCommit, rfl⟩
  refine simulates_get fun c c' hc => ?_
  rw [hc.autoCommit, hc.smartCommit]
  refine simulates_ite _ ?_ (simulates_pure _)
  refine simulates_ite _ ?_ (simulates_ite _ ?_ hlast)
  · exact simulates_bind (simulates_setDelegateAutoCommit hR true) fun _ => hlast
  · refine simulates_bind (simulates_delegateAutoCommit hR) fun d => simulates_ite _ ?_ hlast
    exact simulates_bind (simulates_setDelegateAutoCommit hR false) fun _ => hlast

theorem simulates_endTransaction (call : TransactionCall) {act : Action δ Unit}
    {act' : Action ε Unit} (h : Simulates R act act') :
    Simulates (Above R) (endTransaction call act) (endTransaction call act') := by
  refine simulates_bind (simulates_refuseInAutoCommit call) fun _ => ?_
  refine simulates_get fun c c' hc => ?_
  rw [hc.smartCommit]
  refine simulates_ite _ ?_ (simulates_onDelegate h)
  refine simulates_bind (simulates_delegateAutoCommit hR) fun d => simulates_ite _ ?_ ?_
  · exact simulates_bind (simulates_onDelegate h) fun _ => simulates_setDelegateAutoCommit hR true
  · exact simulates_setDelegateAutoCommit hR true

theorem simulates_setSavepoint (name : Option String) :
    Simulates (Above R) (setSavepoint name) (setSavepoint name) := by
  have hmake := simulates_onDelegate (hR.setSavepoint name)
  refine simulates_bind (simulates_refuseInAutoCommit _) fun _ => ?_
  refine simulates_bind (simulates_delegateAutoCommit hR) fun d => simulates_ite _ ?_ hmake
  exact simulates_bind (simulates_setDelegateAutoCommit hR false) fun _ => hmake

theorem simulates_unlessAutoCommit {act : Action δ Unit} {act' : Action ε Unit}
    (h : Simulates R act act') :
    Simulates (Above R) (do if !(← delegateAutoCommit) then onDelegate act)
      (do if !(← delegateAutoCommit) then onDelegate act') := by
  refine simulates_bind (simulates_delegateAutoCommit hR) fun d => ?_
  exact simulates_ite _ (simulates_onDelegate h) (simulates_pure _)

/-- **Delegates that agree cannot be told apart from above.** Every operation has the same outcome
over both, and leaves controllers that are related as before. -/
theorem perform_simulates (op : Op) : Simulates (Above R) (perform op) (perform op) := by
  have hforward : ∀ {α : Type} (sql : String) (always : Bool) {act : Action δ α}
      {act' : Action ε α}, Simulates R act act' →
      Simulates (Above R) (do beforeExecute sql always; onDelegate act)
        (do beforeExecute sql always; onDelegate act') := fun sql always _ _ h =>
    simulates_bind (simulates_beforeExecute hR sql always) fun _ => simulates_onDelegate h
  cases op with
  | call k =>
    cases k with
    | setAutoCommit on => exact simulates_bind (simulates_setAutoCommit hR on) fun _ => simulates_pure _
    | commit =>
      exact simulates_bind (simulates_endTransaction hR _ hR.commit) fun _ => simulates_pure _
    | rollback =>
      exact simulates_bind (simulates_endTransaction hR _ hR.rollback) fun _ => simulates_pure _
    | setSavepoint name =>
      exact simulates_bind (simulates_setSavepoint hR name) fun _ => simulates_pure _
    | rollbackTo s =>
      refine simulates_bind (simulates_bind (simulates_refuseInAutoCommit _) fun _ => ?_)
        fun _ => simulates_pure _
      exact simulates_unlessAutoCommit hR (hR.rollbackTo s)
    | release s =>
      exact simulates_bind (simulates_unlessAutoCommit hR (hR.release s)) fun _ => simulates_pure _
    | execute sql =>
      exact simulates_bind (hforward sql false (hR.execute sql)) fun _ => simulates_pure _
    | query sql =>
      exact simulates_bind (hforward sql false (hR.query sql)) fun _ => simulates_pure _
  | setSmartCommit on =>
    exact simulates_bind (simulates_setSmartCommit hR on) fun _ => simulates_pure _
  | beforeExecute sql always =>
    exact simulates_bind (simulates_beforeExecute hR sql always) fun _ => simulates_pure _
  | preparedExecute sql =>
    exact simulates_bind (hforward sql true (hR.execute sql)) fun _ => simulates_pure _
  | preparedQuery sql =>
    exact simulates_bind (hforward sql false (hR.query sql)) fun _ => simulates_pure _

end Controller

end DeferredTx.Session
