import DeferredTx.Proofs.Session.Modes

/-!
# Reachable states of a controller

* `Reachable`: the states that operations lead to from a fresh controller over a given delegate, in
  any number and order, failed ones included.
* `Reachable.sound`: the invariant of their modes.
* `flag_follows_modes`: **how the flag follows the settings**, in every reachable state and behind
  every operation that settles.
-/

namespace DeferredTx.Session

open LawfulDelegate (flag)

variable {δ : Type} [Delegate δ]

/-- The states that operations lead to from a controller that wraps the delegate `d`. -/
inductive Reachable (d : δ) : Controller δ → Prop where
  | wrap {c : Controller δ} : Controller.wrap d = .ok c → Reachable d c
  | perform {c : Controller δ} (op : Op) : Reachable d c →
      Reachable d (stateOf (Controller.perform op c))

/-- Runs of any length stay among the reachable states. -/
theorem Reachable.run {d : δ} : ∀ (ops : List Op) {c : Controller δ}, Reachable d c →
    Reachable d (Session.run Controller.perform ops c).2
  | [], _, h => h
  | op :: rest, c, h => by
    have h' := h.perform op
    unfold Session.run
    cases hr : Controller.perform op c with
    | ok r c' =>
      rw [hr] at h'
      exact Reachable.run rest h'
    | error e c' =>
      rw [hr] at h'
      exact Reachable.run rest h'

variable [LawfulDelegate δ]

/-- A fresh controller takes over the flag. -/
theorem sound_wrap {d : δ} {c : Controller δ} (h : Controller.wrap d = .ok c) : c.modes.Sound := by
  unfold Controller.wrap at h
  cases hd : Delegate.autoCommit d with
  | error e d' => simp [hd] at h
  | ok on d' =>
    obtain ⟨hon, hflag⟩ := (LawfulDelegate.autoCommit d).of_ok hd
    simp only [hd, Except.ok.injEq] at h
    subst h
    have hm : (⟨d', on, true⟩ : Controller δ).modes = ⟨on, true, on⟩ := by
      simp [Controller.modes, hflag, hon]
    rw [hm]
    exact ⟨id, fun h => Or.inl h⟩

theorem Reachable.sound {d : δ} {c : Controller δ} (h : Reachable d c) : c.modes.Sound := by
  induction h with
  | wrap h => exact sound_wrap h
  | perform op _ ih => exact ih.perform op

/-- **The delegate's flag follows the settings.** In every reachable state a caller in auto-commit has
the delegate in auto-commit, and the delegate is in auto-commit only if the caller is or smart commit
is on; without smart commit the flag is the caller's mode. Behind a successful commit or rollback, and
behind a successful change of a setting, the flag is on exactly if one of the settings is. -/
theorem flag_follows_modes {d : δ} {c : Controller δ} (h : Reachable d c) :
    (c.autoCommit = true → flag c.delegate = true) ∧
      (flag c.delegate = true → c.autoCommit = true ∨ c.smartCommit = true) ∧
      (c.smartCommit = false → flag c.delegate = c.autoCommit) ∧
      ∀ op r c', op.Settles c.modes → Controller.perform op c = .ok r c' →
        flag c'.delegate = (c'.autoCommit || c'.smartCommit) := by
  have hs := h.sound
  refine ⟨hs.on_of_caller, hs.caller_or_smart, hs.delegate_eq_caller, ?_⟩
  intro op r c' hop hr
  have hm : c'.modes = c.modes.after op := (modes_perform op c).of_ok hr
  have hd := hs.settled hop
  rw [← hm] at hd
  exact hd

/-- A commit behind a write brings the flag of a recorder back on, where smart commit wants it. -/
theorem flag_on_after_commit_of_write :
    let ops : List Op := [.call (.setAutoCommit false), .call (.execute "DELETE FROM t")]
    let c : Controller Recorder := (run Controller.perform ops ⟨{ autoCommit := true }, true, true⟩).2
    Reachable { autoCommit := true } c ∧ flag c.delegate = false ∧
      Op.Settles c.modes (.call .commit) ∧
      ∃ c', Controller.perform (.call .commit) c = .ok .done c' ∧
        flag c'.delegate = (c'.autoCommit || c'.smartCommit) := by
  intro ops c
  have hr : Reachable { autoCommit := true } c := Reachable.run ops (.wrap rfl)
  have hrun : ∃ c', Controller.perform (.call .commit) c = .ok .done c' := ⟨_, by rfl⟩
  obtain ⟨c', hc'⟩ := hrun
  have hop : Op.Settles c.modes (.call .commit) := trivial
  exact ⟨hr, by decide +kernel, hop, c', hc', (flag_follows_modes hr).2.2.2 _ _ _ hop hc'⟩

end DeferredTx.Session
