import DeferredTx.Proofs.Session.Outcome
import DeferredTx.Shell.Program

/-!
# Outcomes of the steps of a session

* `ends_onController`, `ends_find`: what holds behind an action on the controller, and behind a look
  into the table of savepoints, in the manner of `Ends`.
* `onController_reply`: what comes of asking the controller for something.
* `Session.savepoint?`: the table as a function of the name.
* `performAll_append`: steps are carried out one after another, **whether those before them fail or
  not**.
* `performAll_of_program`: the program carries out the steps of its script.
-/

namespace DeferredTx.Shell.Session

open DeferredTx.Session (Action Connector Controller Database Delegate Ends Kept Reply ends_bind)

variable {δ α : Type} {s : Session δ}

section Rules

variable {Q : α → Session δ → Prop} {R : Fault → Session δ → Prop}

theorem ends_onController (act : Action (Controller δ) α) :
    Ends (onController act) s Q R ↔ Ends act s.controller (fun a c => Q a { s with controller := c })
      fun e c => R (.database e) { s with controller := c } := by
  unfold Ends onController
  cases act s.controller <;> rfl

/-- An action on the controller keeps what it keeps of the controller, if the table does not matter. -/
theorem kept_onController {P : Session δ → Prop} {act : Action (Controller δ) α}
    (h : ∀ s : Session δ, Kept (fun c => P { s with controller := c }) act) :
    Kept P (onController act) := by
  intro s hs
  rw [ends_onController]
  exact h s s.controller hs

end Rules

/-- What asks the controller for something fails with it, and otherwise gives what the answer says. -/
theorem onController_reply {β : Type} {act : Action (Controller δ) α} {rest : α → Run δ β}
    {reply : α → Reply} (shown : Reply → β) (after : Reply → Session δ → Session δ)
    (hrest : ∀ a s', rest a s' = .ok (shown (reply a)) (after (reply a) s')) :
    (onController act >>= rest) s =
      match (do return reply (← act) : Action (Controller δ) Reply) s.controller with
      | .ok r w => .ok (shown r) (after r { s with controller := w })
      | .error e w => .error (.database e) { s with controller := w } := by
  simp only [bind, EStateM.bind, onController]
  cases act s.controller with
  | ok a w => exact hrest a _
  | error e w => rfl

/-- The savepoint that stands under a name. -/
def savepoint? (s : Session δ) (name : String) : Option Savepoint :=
  (s.savepoints.find? fun p => p.1 == name).map (·.2)

/-- A look into the table changes nothing. -/
theorem ends_find (name : String) {Q : Savepoint → Session δ → Prop}
    {R : Fault → Session δ → Prop} (hfound : ∀ sp, s.savepoint? name = some sp → Q sp s)
    (hnone : s.savepoint? name = none → R (.unknownSavepoint name) s) : Ends (find name) s Q R := by
  simp only [find, ends_bind, DeferredTx.Session.ends_get]
  unfold savepoint? at hfound hnone
  cases hp : s.savepoints.find? fun p => p.1 == name with
  | none =>
    rw [hp] at hnone
    exact hnone rfl
  | some p =>
    rw [hp] at hfound
    exact hfound p.2 rfl

theorem find_of_none {name : String} (h : s.savepoint? name = none) :
    find name s = .error (.unknownSavepoint name) s := by
  have hends : Ends (find name) s (fun _ _ => False) fun e s' => e = .unknownSavepoint name ∧ s' = s :=
    ends_find name (fun sp hsp => by simp [h] at hsp) fun _ => ⟨rfl, rfl⟩
  obtain ⟨e, s', hfind, rfl, rfl⟩ := hends.exists_error
  exact hfind

/-- What is forgotten under a name is found under no name but others. -/
theorem savepoint?_forget (gone : String) (s : Session δ) (name : String) :
    (s.forget gone).savepoint? name = if gone = name then none else s.savepoint? name := by
  unfold savepoint? forget
  rw [List.find?_filter]
  by_cases h : gone = name
  · rw [if_pos h, Option.map_eq_none_iff, List.find?_eq_none]
    intro p _
    simp [h]
  · rw [if_neg h]
    congr 2
    funext p
    by_cases hp : p.1 = name
    · simp [hp, Ne.symm h]
    · simp [hp]

/-- A savepoint that is kept stands under its name; other names are not concerned. -/
theorem savepoint?_keep (sp : Savepoint) (s : Session δ) (name : String) :
    (s.keep sp).savepoint? name = if sp.sqlName = name then some sp else s.savepoint? name := by
  have hhead : (s.keep sp).savepoint? name =
      if sp.sqlName = name then some sp else (s.forget sp.sqlName).savepoint? name := by
    unfold savepoint? keep
    rw [List.find?_cons]
    by_cases h : sp.sqlName = name
    · simp [h]
    · have hno : (sp.sqlName == name) = false := by simpa using h
      simp only [hno, h, if_false]
  rw [hhead, savepoint?_forget]
  split <;> rfl

variable [Delegate δ]

/-- **The program carries out the steps of its script**, as far as the script is valid: what it prints
begins with what they print. -/
theorem performAll_of_program {σ : Type} [Database σ] {connector : Connector σ} {split : Splitter}
    {files : Files} {vars : Variables} {source : Source} {settings : Settings}
    {controller : Controller (DeferredTx.Session.Connection σ)} {bytes : ByteArray}
    {lines : List String} {valid : Bool} (hload : Settings.load files vars = .ok settings)
    (hopen : connector.openWith settings = .ok controller)
    (hsource : source.bytes files = .ok bytes) (hread : readLines bytes.toList = (lines, valid)) :
    (performAll (if valid then steps lines else (stepsFrom "" lines).1)
      (start split controller)).1 <+: (programOver connector split files vars source).messages := by
  unfold programOver
  simp only [hload, hopen, hsource, hread]
  cases valid with
  | false => exact List.prefix_append _ _
  | true =>
    simp only [if_true]
    split
    · exact List.prefix_rfl
    · exact List.prefix_append _ _

end DeferredTx.Shell.Session
