import DeferredTx.Proofs.Session.Reachable
import DeferredTx.Proofs.Session.Simulation

/-!
# The lifetime of a delegate

A delegate is called by its owner, and it may be put under a controller, operated through it and taken
out again, any number of times.

* `trace`: the answers of a run, each with the state behind it.
* `Arises`: the states of a delegate in the course of its life.
* `Arises.related`: **delegates that agree have the same lives.**
* `Invariant`, `Invariant.arises`: what every method keeps holds all through the life of a delegate,
  above as below a controller.
-/

namespace DeferredTx.Session

variable {ε σ ι ρ α β δ : Type}

/-- The answers of a run in order, each with the state behind it; failed steps are steps. -/
def trace (step : ι → Action σ ρ) : List ι → σ → List (Except DbError ρ × σ)
  | [], _ => []
  | i :: rest, s =>
    (answerOf (step i s), stateOf (step i s)) :: trace step rest (stateOf (step i s))

/-- A run gives the answers of its trace and the last of its states. -/
theorem run_eq_trace (step : ι → Action σ ρ) (is : List ι) (s : σ) :
    run step is s = ((trace step is s).map (·.1), ((trace step is s).map (·.2)).getLastD s) := by
  induction is generalizing s with
  | nil => rfl
  | cons i rest ih =>
    have hlast : ∀ s' : σ, (s' :: (trace step rest s').map (·.2)).getLastD s =
        ((trace step rest s').map (·.2)).getLastD s' := by
      intro s'
      rw [List.getLastD_cons]
    simp only [run, trace, List.map_cons, hlast]
    cases step i s <;> simp only [ih, answerOf, stateOf]

section Kept

variable {P : σ → Prop} {act : Action σ α}

/-- An action that keeps a property agrees with itself on the states that have it. -/
theorem Kept.simulates (h : Kept P act) : Simulates (fun s t => s = t ∧ P s) act act := by
  rintro s _ ⟨rfl, hs⟩
  have hends := h s hs
  unfold Ends at hends
  generalize act s = r at hends
  cases r with
  | ok a s' => exact .ok a ⟨rfl, hends⟩
  | error e s' => exact .error e ⟨rfl, hends⟩

/-- What every step of a run keeps holds in each of its states. -/
theorem kept_trace {step : ι → Action σ ρ} {is : List ι} (h : ∀ i ∈ is, Kept P (step i)) {s : σ}
    (hs : P s) : ∀ x ∈ trace step is s, P x.2 := by
  induction is generalizing s with
  | nil => exact fun x hx => absurd hx List.not_mem_nil
  | cons i rest ih =>
    have hnext : P (stateOf (step i s)) := (h i List.mem_cons_self s hs).state
    intro x hx
    rcases List.mem_cons.1 hx with rfl | hrest
    · exact hnext
    · exact ih (fun j hj => h j (List.mem_cons_of_mem i hj)) hnext x hrest

/-- So does the last one of them. -/
theorem kept_run {step : ι → Action σ ρ} {is : List ι} (h : ∀ i ∈ is, Kept P (step i)) {s : σ}
    (hs : P s) : P (run step is s).2 := by
  rw [run_eq_trace]
  rcases List.eq_nil_or_concat ((trace step is s).map (·.2)) with hnil | ⟨init, t, hconcat⟩
  · rw [hnil]
    exact hs
  · have ht : t ∈ (trace step is s).map (·.2) := by simp [hconcat]
    obtain ⟨x, hx, rfl⟩ := List.mem_map.1 ht
    have hlast : (init ++ [x.2]).getLastD s = x.2 := by simp
    rw [hconcat, List.concat_eq_append, hlast]
    exact kept_trace h hs x hx

end Kept

variable [Delegate δ]

/-- A property that every method of a delegate keeps. -/
def Invariant (P : δ → Prop) : Prop :=
  DelegateSim fun d d' : δ => d = d' ∧ P d

/-- Calls agree where the methods do. -/
theorem DelegateSim.perform [Delegate ε] {R : δ → ε → Prop} (hR : DelegateSim R) (k : Call) :
    Simulates R (Delegate.perform k) (Delegate.perform k) := by
  cases k with
  | setAutoCommit on => exact simulates_bind (hR.setAutoCommit on) fun _ => simulates_pure _
  | commit => exact simulates_bind hR.commit fun _ => simulates_pure _
  | rollback => exact simulates_bind hR.rollback fun _ => simulates_pure _
  | setSavepoint name => exact simulates_bind (hR.setSavepoint name) fun _ => simulates_pure _
  | rollbackTo s => exact simulates_bind (hR.rollbackTo s) fun _ => simulates_pure _
  | release s => exact simulates_bind (hR.release s) fun _ => simulates_pure _
  | execute sql => exact simulates_bind (hR.execute sql) fun _ => simulates_pure _
  | query sql => exact simulates_bind (hR.query sql) fun _ => simulates_pure _

/-- The states of a delegate that is `Fresh` at first: called on its own, and through controllers that
it is put under. -/
inductive Arises (Fresh : δ → Prop) : δ → Prop where
  | fresh {d : δ} : Fresh d → Arises Fresh d
  | call {d : δ} (k : Call) : Arises Fresh d → Arises Fresh (stateOf (Delegate.perform k d))
  | under {d : δ} {c : Controller δ} : Arises Fresh d → Reachable d c → Arises Fresh c.delegate

/-- Calls one after another are part of a life. -/
theorem Arises.run {Fresh : δ → Prop} : ∀ (calls : List Call) {d : δ}, Arises Fresh d →
    Arises Fresh (Session.run Delegate.perform calls d).2
  | [], _, h => h
  | k :: rest, d, h => by
    have h' := h.call k
    unfold Session.run
    cases hr : Delegate.perform k d with
    | ok r d' =>
      rw [hr] at h'
      exact Arises.run rest h'
    | error e d' =>
      rw [hr] at h'
      exact Arises.run rest h'

section Related

variable [Delegate ε] {R : δ → ε → Prop}

/-- Related delegates can be put under a controller or cannot. -/
theorem Controller.wrap_related (hR : DelegateSim R) {d : δ} {e : ε} (h : R d e) {c' : Controller ε}
    (hc : Controller.wrap e = .ok c') : ∃ c, Controller.wrap d = .ok c ∧ Above R c c' := by
  have hflag := hR.autoCommit d e h
  unfold Controller.wrap at hc ⊢
  generalize Delegate.autoCommit d = r, Delegate.autoCommit e = r' at hflag hc
  cases hflag with
  | error fault _ => cases hc
  | ok on hde =>
    cases hc
    exact ⟨_, rfl, hde, rfl, rfl⟩

theorem Reachable.related (hR : DelegateSim R) {d : δ} {e : ε} (h : R d e) {c' : Controller ε}
    (hc : Reachable e c') : ∃ c, Reachable d c ∧ Above R c c' := by
  induction hc with
  | wrap hc =>
    obtain ⟨c, hwrap, habove⟩ := Controller.wrap_related hR h hc
    exact ⟨c, .wrap hwrap, habove⟩
  | perform op _ ih =>
    obtain ⟨c, hreach, habove⟩ := ih
    exact ⟨_, hreach.perform op, (Controller.perform_simulates hR op _ _ habove).state⟩

/-- **Delegates that agree have the same lives.** Whatever one of them comes to, the other one does
too. -/
theorem Arises.related (hR : DelegateSim R) {Fresh : δ → Prop} {Fresh' : ε → Prop}
    (hfresh : ∀ e, Fresh' e → ∃ d, Fresh d ∧ R d e) {e : ε} (h : Arises Fresh' e) :
    ∃ d, Arises Fresh d ∧ R d e := by
  induction h with
  | fresh h =>
    obtain ⟨d, hd, hde⟩ := hfresh _ h
    exact ⟨d, .fresh hd, hde⟩
  | call k _ ih =>
    obtain ⟨d, hd, hde⟩ := ih
    exact ⟨_, hd.call k, (DelegateSim.perform hR k _ _ hde).state⟩
  | under _ hc ih =>
    obtain ⟨d, hd, hde⟩ := ih
    obtain ⟨c, hreach, habove⟩ := Reachable.related hR hde hc
    exact ⟨_, hd.under hreach, habove.delegate⟩

end Related

namespace Invariant

variable {P : δ → Prop}

/-- The methods keep what the calls keep, and the question for the flag. -/
theorem of_calls (hanswer : Kept P Delegate.autoCommit) (h : ∀ k, Kept P (Delegate.perform k)) :
    Invariant P where
  autoCommit := hanswer.simulates
  setAutoCommit on := Kept.simulates fun d hd => by
    simpa only [Delegate.perform, ends_bind, ends_pure] using h (.setAutoCommit on) d hd
  commit := Kept.simulates fun d hd => by
    simpa only [Delegate.perform, ends_bind, ends_pure] using h .commit d hd
  rollback := Kept.simulates fun d hd => by
    simpa only [Delegate.perform, ends_bind, ends_pure] using h .rollback d hd
  setSavepoint name := Kept.simulates fun d hd => by
    simpa only [Delegate.perform, ends_bind, ends_pure] using h (.setSavepoint name) d hd
  rollbackTo s := Kept.simulates fun d hd => by
    simpa only [Delegate.perform, ends_bind, ends_pure] using h (.rollbackTo s) d hd
  release s := Kept.simulates fun d hd => by
    simpa only [Delegate.perform, ends_bind, ends_pure] using h (.release s) d hd
  execute sql := Kept.simulates fun d hd => by
    simpa only [Delegate.perform, ends_bind, ends_pure] using h (.execute sql) d hd
  query sql := Kept.simulates fun d hd => by
    simpa only [Delegate.perform, ends_bind, ends_pure] using h (.query sql) d hd

theorem reachable (hP : Invariant P) {d : δ} {c : Controller δ} (h : P d) (hc : Reachable d c) :
    P c.delegate := by
  obtain ⟨c', -, habove⟩ := Reachable.related hP ⟨rfl, h⟩ hc
  obtain ⟨heq, hP'⟩ := habove.delegate
  rw [← heq]
  exact hP'

/-- **What every method keeps holds all through the life of a delegate.** -/
theorem arises (hP : Invariant P) {Fresh : δ → Prop} (hfresh : ∀ d, Fresh d → P d) {d : δ}
    (h : Arises Fresh d) : P d := by
  obtain ⟨_, -, rfl, hd⟩ := Arises.related hP (fun d hd => ⟨d, hd, rfl, hfresh d hd⟩) h
  exact hd

end Invariant

end DeferredTx.Session
