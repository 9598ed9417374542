import DeferredTx.Proofs.Session.Flag

/-!
# The modes of a controller

A controller has two settings, and its delegate has a flag. What an operation does to the three of
them depends on nothing else, so that they form a small state machine of their own.

* `Modes`, `Modes.after`: the three bits, and what a successful operation makes of them.
* `modes_perform`: every operation of a controller over a lawful delegate takes this step, and one
  that fails changes neither setting.
* `Modes.Sound`: the invariant of these bits, which every step keeps.
* `Op.Settles`, `Modes.Sound.settled`: the operations that bring the flag in line with the settings.
-/

namespace DeferredTx.Session

open LawfulDelegate (flag)

/-- The settings of a controller and the flag of its delegate. -/
structure Modes where
  /-- The auto-commit mode that the caller asked for. -/
  caller : Bool
  smart : Bool
  /-- The delegate's own flag. -/
  delegate : Bool
  deriving DecidableEq

/-- Whether an operation takes the delegate out of auto-commit, if the caller's mode is off. -/
def Op.suspends : Op → Bool
  | .call (.execute sql) | .call (.query sql) | .preparedQuery sql => Statement.isWrite sql
  | .preparedExecute _ => true
  | .beforeExecute sql always => always || Statement.isWrite sql
  | .call (.setSavepoint _) => true
  | _ => false

/-- The operations that bring the delegate's flag in line with the settings `m`: the end of a
transaction, and a change of a setting. -/
def Op.Settles (m : Modes) : Op → Prop
  | .call .commit | .call .rollback => True
  | .call (.setAutoCommit on) => m.caller ≠ on
  | .setSmartCommit on => m.smart ≠ on
  | _ => False

namespace Modes

/-- The modes behind a suspension, if there is `need` for one. While the caller's mode is on there is
none. -/
def suspended (m : Modes) (need : Bool) : Modes :=
  { m with delegate := m.delegate && (m.caller || !need) }

theorem suspended_of_caller {m : Modes} (h : m.caller = true) (need : Bool) :
    m.suspended need = m := by
  obtain ⟨caller, _, delegate⟩ := m
  subst h
  simp [suspended]

theorem suspended_of_delegate_off {m : Modes} (h : m.delegate = false) (need : Bool) :
    m.suspended need = m := by
  obtain ⟨_, _, delegate⟩ := m
  subst h
  rfl

theorem suspended_false (m : Modes) : m.suspended false = m := by
  simp [suspended]

theorem suspended_true {m : Modes} (h : m.caller = false) :
    m.suspended true = { m with delegate := false } := by
  simp [suspended, h]

/-- The modes behind the end of a transaction. -/
def ended (m : Modes) : Modes :=
  if m.smart then { m with delegate := true } else m

/-- The modes behind a successful operation. -/
def after (m : Modes) : Op → Modes
  | .call (.setAutoCommit on) =>
    if m.caller = on then m else { m with caller := on, delegate := on || m.smart }
  | .setSmartCommit on =>
    if m.smart = on then m else { m with smart := on, delegate := on || m.caller && m.delegate }
  | .call .commit | .call .rollback => m.ended
  | op => m.suspended op.suspends

/-- **The invariant.** A delegate under a caller in auto-commit is in auto-commit, and a delegate is
in auto-commit under no other caller than one of smart commit. -/
structure Sound (m : Modes) : Prop where
  on_of_caller : m.caller = true → m.delegate = true
  caller_or_smart : m.delegate = true → m.caller = true ∨ m.smart = true

/-- Without smart commit the flag is the caller's mode. -/
theorem Sound.delegate_eq_caller {m : Modes} (h : m.Sound) (hs : m.smart = false) :
    m.delegate = m.caller := by
  rw [Bool.eq_iff_iff]
  refine ⟨fun hd => (h.caller_or_smart hd).resolve_right ?_, h.on_of_caller⟩
  simp [hs]

theorem Sound.suspended {m : Modes} (h : m.Sound) (need : Bool) : (m.suspended need).Sound := by
  constructor
  · intro hc
    have hd := h.on_of_caller hc
    have hc' : m.caller = true := hc
    simp [Modes.suspended, hd, hc']
  · intro hd
    simp only [Modes.suspended, Bool.and_eq_true] at hd
    exact h.caller_or_smart hd.1

theorem Sound.ended {m : Modes} (h : m.Sound) : m.ended.Sound := by
  unfold Modes.ended
  split
  · exact ⟨fun _ => rfl, fun _ => Or.inr ‹_›⟩
  · exact h

theorem Sound.after {m : Modes} (h : m.Sound) (op : Op) : (m.after op).Sound := by
  unfold Modes.after
  split
  · -- the caller's mode
    split
    · exact h
    · exact ⟨fun hon => by simpa using Or.inl hon, fun hd => by simpa using hd⟩
  · -- smart commit
    split
    · exact h
    · refine ⟨fun hc => ?_, fun hd => ?_⟩
      · have hd := h.on_of_caller hc
        have hc' : m.caller = true := hc
        simp [hc', hd]
      · simp only [Bool.or_eq_true, Bool.and_eq_true] at hd
        rcases hd with hon | ⟨hc, -⟩
        · exact Or.inr hon
        · exact Or.inl hc
  · exact h.ended
  · exact h.ended
  · exact h.suspended _

/-- Behind an operation that settles, the flag is the one that the settings ask for. -/
theorem Sound.settled {m : Modes} (h : m.Sound) {op : Op} (hop : op.Settles m) :
    (m.after op).delegate = ((m.after op).caller || (m.after op).smart) := by
  have hended : m.ended.delegate = (m.ended.caller || m.ended.smart) := by
    cases hs : m.smart with
    | true => simp [Modes.ended, hs]
    | false => simp [Modes.ended, hs, h.delegate_eq_caller hs]
  unfold Op.Settles at hop
  split at hop
  · exact hended
  · exact hended
  · simp [Modes.after, hop]
  · rename_i on
    simp only [Modes.after, if_neg hop]
    cases on with
    | true => simp
    | false =>
      -- the flag stays on only under a caller in auto-commit
      have hd : m.caller = true → m.delegate = true := h.on_of_caller
      cases hc : m.caller <;> simp_all
  · exact hop.elim

end Modes

variable {δ α : Type}

namespace Controller

theorem ends_refuseInAutoCommit (call : TransactionCall) (c : Controller δ)
    {Q : Unit → Controller δ → Prop} {R : DbError → Controller δ → Prop} :
    Ends (refuseInAutoCommit call) c Q R ↔
      if c.autoCommit = true then R (.inAutoCommit call) c else Q () c := by
  simp [refuseInAutoCommit]

variable [Delegate δ] [LawfulDelegate δ]

/-- The modes of a controller. -/
def modes (c : Controller δ) : Modes :=
  ⟨c.autoCommit, c.smartCommit, flag c.delegate⟩

theorem modes_delegate (c : Controller δ) (d : δ) :
    modes { c with delegate := d } = { c.modes with delegate := flag d } := rfl

theorem keeps_onDelegate {act : Action δ α} (h : Keeps flag act) :
    Keeps modes (onDelegate act) := by
  intro c
  rw [ends_onDelegate]
  refine (h c.delegate).mono ?_ ?_ <;> intro _ d hd <;> rw [modes_delegate, hd] <;> rfl

theorem ends_delegateAutoCommit (c : Controller δ) :
    Ends delegateAutoCommit c (fun on c' => on = c.modes.delegate ∧ c'.modes = c.modes)
      fun _ c' => c'.modes = c.modes := by
  rw [delegateAutoCommit, ends_onDelegate]
  refine (LawfulDelegate.autoCommit c.delegate).mono (fun on d h => ⟨h.1, ?_⟩) fun _ d h => ?_
  · rw [modes_delegate, h.2]; rfl
  · rw [modes_delegate, h]; rfl

theorem ends_setDelegateAutoCommit (on : Bool) (c : Controller δ) :
    Ends (setDelegateAutoCommit on) c (fun _ c' => c'.modes = { c.modes with delegate := on })
      fun _ c' => c'.modes = c.modes := by
  rw [setDelegateAutoCommit, ends_onDelegate]
  refine (LawfulDelegate.setAutoCommit on c.delegate).mono (fun _ d h => ?_) fun _ d h => ?_
  · rw [modes_delegate, h]
  · rw [modes_delegate, h]; rfl

theorem ends_beforeExecute (sql : String) (always : Bool) (c : Controller δ) :
    Ends (beforeExecute sql always) c
      (fun _ c' => c'.modes = c.modes.suspended (always || Statement.isWrite sql))
      fun _ c' => c'.modes = c.modes := by
  simp only [beforeExecute, ends_bind, ends_get, ends_ite, ends_pure]
  generalize (always || Statement.isWrite sql) = need
  -- the caller's mode is asked first, then the delegate's flag, and only then whether there is need
  cases hc : c.autoCommit with
  | true => exact (Modes.suspended_of_caller hc need).symm
  | false =>
    refine (ends_delegateAutoCommit c).mono (fun on c₁ h => ?_) fun _ _ h => h
    obtain ⟨rfl, hm⟩ := h
    cases hd : c.modes.delegate with
    | false => exact hm.trans (Modes.suspended_of_delegate_off hd need).symm
    | true =>
      cases need with
      | false => exact hm.trans c.modes.suspended_false.symm
      | true =>
        refine (ends_setDelegateAutoCommit false c₁).mono (fun _ c₂ h => ?_) fun _ _ h => h.trans hm
        rw [h, hm, Modes.suspended_true hc]

theorem ends_setAutoCommit (on : Bool) (c : Controller δ) :
    Ends (setAutoCommit on) c
      (fun _ c' => c'.modes = c.modes.after (.call (.setAutoCommit on)))
      fun _ c' => c'.modes = c.modes := by
  simp only [setAutoCommit, ends_bind, ends_get, ends_ite, ends_pure, Modes.after, bne_iff_ne]
  by_cases h : c.autoCommit = on
  · rw [if_neg (by simpa using h), if_pos (by exact h)]
  · rw [if_pos h, if_neg (by exact h)]
    refine (ends_setDelegateAutoCommit _ c).mono (fun _ c' hc => ?_) fun _ _ hc => hc
    rw [ends_modify]
    exact congrArg (fun m : Modes => { m with caller := on }) hc

/-- The delegate's flag when smart commit is switched off: what was deferred begins now. -/
theorem ends_setSmartCommit (on : Bool) (c : Controller δ) :
    Ends (setSmartCommit on) c (fun _ c' => c'.modes = c.modes.after (.setSmartCommit on))
      fun _ c' => c'.modes = c.modes := by
  -- the delegate's flag is set first, and only then the setting
  have last : ∀ (c' : Controller δ) (d : Bool), c'.modes = { c.modes with delegate := d } →
      modes { c' with smartCommit := on } = { c.modes with smart := on, delegate := d } :=
    fun c' d h => congrArg (fun m : Modes => { m with smart := on }) h
  simp only [setSmartCommit, ends_bind, ends_get, ends_pure, ends_ite, bne_iff_ne]
  by_cases h : c.smartCommit = on
  · rw [if_neg (by simpa using h)]
    exact (if_pos h).symm
  rw [if_pos h, show c.modes.after (.setSmartCommit on) =
    { c.modes with smart := on, delegate := on || c.modes.caller && c.modes.delegate } from if_neg h]
  cases on with
  | true =>
    refine (ends_setDelegateAutoCommit true c).mono (fun _ c' hc => ?_) fun _ _ hc => hc
    exact last c' true hc
  | false =>
    cases hc : c.autoCommit with
    | true =>
      rw [show c.modes.caller = true from hc]
      exact last c c.modes.delegate rfl
    | false =>
      rw [show c.modes.caller = false from hc]
      refine (ends_delegateAutoCommit c).mono (fun on c₁ h₁ => ?_) fun _ _ h₁ => h₁
      obtain ⟨rfl, hm⟩ := h₁
      cases hd : c.modes.delegate with
      | false => exact last c₁ false (hm.trans (by rw [← hd]))
      | true =>
        refine (ends_setDelegateAutoCommit false c₁).mono (fun _ c₂ h₂ => ?_) fun _ _ h₂ => h₂.trans hm
        exact last c₂ false (by rw [h₂, hm])

/-- A commit or a rollback, by what it has the delegate do. -/
theorem ends_endTransaction (call : TransactionCall) {act : Action δ Unit} (hact : Keeps flag act)
    (c : Controller δ) :
    Ends (endTransaction call act) c (fun _ c' => c'.modes = c.modes.ended)
      fun _ c' => c'.modes = c.modes := by
  simp only [endTransaction, ends_bind, ends_refuseInAutoCommit, ends_get, ends_ite]
  cases c.autoCommit with
  | true => simp
  | false =>
    cases hs : c.smartCommit with
    | false =>
      rw [show c.modes.ended = c.modes from if_neg (by simp [modes, hs])]
      exact keeps_onDelegate hact c
    | true =>
      rw [show c.modes.ended = { c.modes with delegate := true } from if_pos hs]
      have hset : ∀ c₁ : Controller δ, c₁.modes = c.modes → Ends (setDelegateAutoCommit true) c₁
          (fun _ c' => c'.modes = { c.modes with delegate := true })
          fun _ c' => c'.modes = c.modes := by
        intro c₁ h₁
        rw [← h₁]
        exact ends_setDelegateAutoCommit true c₁
      -- a delegate in auto-commit has no transaction to end
      refine (ends_delegateAutoCommit c).mono (fun on c₁ h₁ => ?_) fun _ _ h₁ => h₁
      obtain ⟨rfl, h₁⟩ := h₁
      cases c.modes.delegate with
      | true => exact hset c₁ h₁
      | false =>
        refine (keeps_onDelegate hact c₁).mono (fun _ c₂ h₂ => ?_) fun _ _ h₂ => h₂.trans h₁
        exact hset c₂ (h₂.trans h₁)

theorem ends_setSavepoint (name : Option String) (c : Controller δ) :
    Ends (setSavepoint name) c (fun _ c' => c'.modes = c.modes.suspended true)
      fun _ c' => c'.modes = c.modes ∨ c'.modes = c.modes.suspended true := by
  simp only [setSavepoint, ends_bind, ends_refuseInAutoCommit, ends_ite]
  have hmake : ∀ c₁ : Controller δ, c₁.modes = c.modes.suspended true →
      Ends (onDelegate (Delegate.setSavepoint name)) c₁
        (fun _ c' => c'.modes = c.modes.suspended true)
        fun _ c' => c'.modes = c.modes ∨ c'.modes = c.modes.suspended true := by
    intro c₁ h₁
    refine (keeps_onDelegate (LawfulDelegate.setSavepoint name) c₁).mono (fun _ _ h => ?_) fun _ _ h => ?_
    · exact h.trans h₁
    · exact Or.inr (h.trans h₁)
  cases hc : c.autoCommit with
  | true => simp
  | false =>
    refine (ends_delegateAutoCommit c).mono (fun on c₁ h₁ => ?_) fun _ _ h₁ => Or.inl h₁
    obtain ⟨rfl, h₁⟩ := h₁
    cases hd : c.modes.delegate with
    | false => exact hmake c₁ (h₁.trans (Modes.suspended_of_delegate_off hd true).symm)
    | true =>
      refine (ends_setDelegateAutoCommit false c₁).mono (fun _ c₂ h₂ => ?_) fun _ _ h₂ =>
        Or.inl (h₂.trans h₁)
      exact hmake c₂ (by rw [h₂, h₁, Modes.suspended_true hc])

/-- An action that only a delegate outside auto-commit is asked for. -/
theorem keeps_unlessAutoCommit {act : Action δ Unit} (hact : Keeps flag act) :
    Keeps (modes (δ := δ)) (do if !(← delegateAutoCommit) then onDelegate act) := by
  intro c
  simp only [ends_bind, ends_ite, ends_pure]
  refine (ends_delegateAutoCommit c).mono (fun on c₁ h₁ => ?_) fun _ _ h₁ => h₁
  obtain ⟨-, h₁⟩ := h₁
  rw [← h₁]
  split
  · exact keeps_onDelegate hact c₁
  · rfl

theorem keeps_rollbackTo (s : Savepoint) : Keeps modes (rollbackTo (δ := δ) s) := by
  refine keeps_bind (fun c => ?_) fun _ => keeps_unlessAutoCommit (LawfulDelegate.rollbackTo s)
  rw [ends_refuseInAutoCommit]
  split <;> rfl

theorem keeps_release (s : Savepoint) : Keeps modes (release (δ := δ) s) :=
  keeps_unlessAutoCommit (LawfulDelegate.release s)

/-- A text that is forwarded behind a suspension. -/
theorem ends_forward {act : Action δ α} (hact : Keeps flag act) (sql : String) (always : Bool)
    (c : Controller δ) :
    Ends (do beforeExecute sql always; onDelegate act) c
      (fun _ c' => c'.modes = c.modes.suspended (always || Statement.isWrite sql))
      fun _ c' => c'.modes = c.modes ∨
        c'.modes = c.modes.suspended (always || Statement.isWrite sql) := by
  rw [ends_bind]
  refine (ends_beforeExecute sql always c).mono (fun _ c₁ h₁ => ?_) fun _ _ h₁ => Or.inl h₁
  exact (keeps_onDelegate hact c₁).mono (fun _ _ h => h.trans h₁) fun _ _ h => Or.inr (h.trans h₁)

end Controller

variable [Delegate δ] [LawfulDelegate δ]

/-- **Every operation is a step of the modes.** One that succeeds takes the step; one that fails has
at most suspended auto-commit on the delegate. -/
theorem modes_perform (op : Op) (c : Controller δ) :
    Ends (Controller.perform op) c (fun _ c' => c'.modes = c.modes.after op)
      fun _ c' => c'.modes = c.modes ∨ c'.modes = c.modes.suspended op.suspends := by
  -- a step that changes nothing is a suspension without need
  have still : ∀ c' : Controller δ, c'.modes = c.modes → c'.modes = c.modes.suspended false :=
    fun c' h => h.trans c.modes.suspended_false.symm
  cases op with
  | call k =>
    cases k <;> simp only [Controller.perform, ends_bind, ends_pure]
    case setAutoCommit on =>
      exact (Controller.ends_setAutoCommit on c).mono (fun _ _ h => h) fun _ _ h => Or.inl h
    case commit =>
      exact (Controller.ends_endTransaction .commit LawfulDelegate.commit c).mono (fun _ _ h => h)
        fun _ _ h => Or.inl h
    case rollback =>
      exact (Controller.ends_endTransaction .rollback LawfulDelegate.rollback c).mono
        (fun _ _ h => h) fun _ _ h => Or.inl h
    case setSavepoint name => exact Controller.ends_setSavepoint name c
    case rollbackTo s =>
      exact (Controller.keeps_rollbackTo s c).mono (fun _ c' h => still c' h) fun _ _ h => Or.inl h
    case release s =>
      exact (Controller.keeps_release s c).mono (fun _ c' h => still c' h) fun _ _ h => Or.inl h
    case execute sql => exact Controller.ends_forward (LawfulDelegate.execute sql) sql false c
    case query sql => exact Controller.ends_forward (LawfulDelegate.query sql) sql false c
  | setSmartCommit on =>
    simp only [Controller.perform, ends_bind, ends_pure]
    exact (Controller.ends_setSmartCommit on c).mono (fun _ _ h => h) fun _ _ h => Or.inl h
  | beforeExecute sql always =>
    simp only [Controller.perform, ends_bind, ends_pure]
    exact (Controller.ends_beforeExecute sql always c).mono (fun _ _ h => h) fun _ _ h => Or.inl h
  | preparedExecute sql =>
    simp only [Controller.perform, ends_bind, ends_pure]
    exact Controller.ends_forward (LawfulDelegate.execute sql) sql true c
  | preparedQuery sql =>
    simp only [Controller.perform, ends_bind, ends_pure]
    exact Controller.ends_forward (LawfulDelegate.query sql) sql false c

/-- The invariant is kept, whether an operation succeeds or fails. -/
theorem Modes.Sound.perform {c : Controller δ} (h : c.modes.Sound) (op : Op) :
    (stateOf (Controller.perform op c)).modes.Sound := by
  refine Ends.state (P := fun c' => c'.modes.Sound) ((modes_perform op c).mono ?_ ?_)
  · intro _ c' hc
    rw [hc]
    exact h.after op
  · rintro _ c' (hc | hc) <;> rw [hc]
    · exact h
    · exact h.suspended _

end DeferredTx.Session
