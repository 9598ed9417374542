import DeferredTx.Proofs.Shell.Outcome

/-!
# What a meta command does

A line is read as a command, the command asks the controller for one operation, and its answer is
printed. Nothing else is done.

* `Asks`: the operation that a command asks for, by the savepoints that stand.
* `Carried`: a line, a session, and what comes of the one on the other.
* `carried_iff`: **that is what a step with a meta command comes to**, and nothing else.
-/

namespace DeferredTx.Shell

open DeferredTx.Session (Controller Delegate Ends Op Reply bind_of_error bind_of_ok)

namespace Session

variable {δ : Type}

/-- The operation that a command asks the controller for. A savepoint is given by the name that it
stands under. -/
inductive Asks (s : Session δ) : Command → Op → Prop where
  | commit : Asks s .commit (.call .commit)
  | rollback : Asks s .rollback (.call .rollback)
  | autoCommit (on : Bool) : Asks s (.autoCommit on) (.call (.setAutoCommit on))
  | smartCommit (on : Bool) : Asks s (.smartCommit on) (.setSmartCommit on)
  | savepoint (name : Option String) : Asks s (.savepoint name) (.call (.setSavepoint name))
  | release {name : String} {sp : Savepoint} : s.savepoint? name = some sp →
    Asks s (.release name) (.call (.release sp))
  | rollbackTo {name : String} {sp : Savepoint} : s.savepoint? name = some sp →
    Asks s (.rollbackTo name) (.call (.rollbackTo sp))

/-- What is printed of the controller's answer to a command. -/
def announced : Reply → List String
  | .savepoint sp => ["savepoint " ++ sp.sqlName]
  | _ => []

/-- The session behind a command that has been answered: a savepoint is kept, and one that has been
released is forgotten. -/
def noted : Command → Reply → Session δ → Session δ
  | .savepoint _, .savepoint sp, s => s.keep sp
  | .release name, _, s => s.forget name
  | _, _, s => s

variable [Delegate δ]

/-- What comes of a line on a session: the lines printed, the failure, and the session afterwards. -/
inductive Carried (line : String) (s : Session δ) : List String × Option Fault × Session δ → Prop where
  /-- The line cannot be read. -/
  | unread {e : CommandError} : Command.read line = .error e →
    Carried line s ([], some (.command e), s)
  /-- No savepoint stands under the name, and nothing is asked for. -/
  | unknown {c : Command} {name : String} : Command.read line = .ok c →
    (c = .release name ∨ c = .rollbackTo name) → s.savepoint? name = none →
    Carried line s ([], some (.unknownSavepoint name), s)
  /-- The controller refuses, or fails. -/
  | failed {c : Command} {op : Op} {e : DbError} {w : Controller δ} : Command.read line = .ok c →
    Asks s c op → Controller.perform op s.controller = .error e w →
    Carried line s ([], some (.database e), { s with controller := w })
  | done {c : Command} {op : Op} {r : Reply} {w : Controller δ} : Command.read line = .ok c →
    Asks s c op → Controller.perform op s.controller = .ok r w →
    Carried line s (announced r, none, noted c r { s with controller := w })
  /-- The settings are shown, with the delegate's flag as it is now. -/
  | status {on : Bool} {w : Controller δ} : Command.read line = .ok .status →
    Controller.delegateAutoCommit s.controller = .ok on w →
    Carried line s (["autocommit=" ++ toString w.autoCommit ++ " smartcommit="
      ++ toString w.smartCommit ++ " delegate_autocommit=" ++ toString on], none,
      { s with controller := w })
  | noStatus {e : DbError} {w : Controller δ} : Command.read line = .ok .status →
    Controller.delegateAutoCommit s.controller = .error e w →
    Carried line s ([], some (.database e), { s with controller := w })

variable {line : String} {s : Session δ} {c : Command} {op : Op}

omit [Delegate δ] in
theorem find_of_some {name : String} {sp : Savepoint} (h : s.savepoint? name = some sp) :
    find name s = .ok sp s := by
  have hends : Ends (find name) s (fun found s' => found = sp ∧ s' = s) fun _ _ => False :=
    ends_find name (fun found hfound => ⟨Option.some.inj (hfound.symm.trans h), rfl⟩)
      fun hnone => by simp [h] at hnone
  obtain ⟨_, _, hfind, rfl, rfl⟩ := hends.exists_ok
  exact hfind

/-- The commands that name a savepoint fail if none stands under the name, and leave the session, with
its delegate, as it is. -/
theorem runCommand_of_none {name : String} (h : s.savepoint? name = none) :
    runCommand (.release name) s = .error (.unknownSavepoint name) s ∧
      runCommand (.rollbackTo name) s = .error (.unknownSavepoint name) s :=
  ⟨bind_of_error (find_of_none h), bind_of_error (find_of_none h)⟩

/-- **A command does what it asks for.** -/
theorem runCommand_of_asks (h : Asks s c op) : runCommand c s =
    match Controller.perform op s.controller with
    | .ok r w => .ok (announced r) (noted c r { s with controller := w })
    | .error e w => .error (.database e) { s with controller := w } := by
  cases h with
  | commit => exact onController_reply announced (noted _) fun _ _ => rfl
  | rollback => exact onController_reply announced (noted _) fun _ _ => rfl
  | autoCommit on => exact onController_reply announced (noted _) fun _ _ => rfl
  | smartCommit on => exact onController_reply announced (noted _) fun _ _ => rfl
  | savepoint name => exact onController_reply announced (noted _) fun _ _ => rfl
  -- these two look their savepoint up before they ask for anything
  | @release name sp hsp =>
    rw [runCommand, bind_of_ok (find_of_some hsp)]
    exact onController_reply announced (noted _) fun _ _ => rfl
  | @rollbackTo name sp hsp =>
    rw [runCommand, bind_of_ok (find_of_some hsp)]
    exact onController_reply announced (noted _) fun _ _ => rfl

/-- The command that shows the settings asks for the delegate's flag. -/
theorem runCommand_status (s : Session δ) : runCommand .status s =
    match Controller.delegateAutoCommit s.controller with
    | .ok on w => .ok ["autocommit=" ++ toString w.autoCommit ++ " smartcommit="
        ++ toString w.smartCommit ++ " delegate_autocommit=" ++ toString on] { s with controller := w }
    | .error e w => .error (.database e) { s with controller := w } := by
  simp only [runCommand, status, bind, EStateM.bind, onController]
  cases Controller.delegateAutoCommit s.controller <;> rfl

theorem runStep_of_unread {e : CommandError} (h : Command.read line = .error e) (s : Session δ) :
    runStep (.command line) s = ([], some (.command e), s) := by
  simp only [runStep, runLine, h]
  rfl

theorem runStep_of_ok {lines : List String} {s' : Session δ} (hread : Command.read line = .ok c)
    (h : runCommand c s = .ok lines s') : runStep (.command line) s = (lines, none, s') := by
  simp only [runStep, runLine, hread, h]

theorem runStep_of_error {e : Fault} {s' : Session δ} (hread : Command.read line = .ok c)
    (h : runCommand c s = .error e s') : runStep (.command line) s = ([], some e, s') := by
  simp only [runStep, runLine, hread, h]

/-- What comes of a line is what a step with it comes to. -/
theorem Carried.eq_runStep {x : List String × Option Fault × Session δ} (h : Carried line s x) :
    x = runStep (.command line) s := by
  cases h with
  | unread hread => exact (runStep_of_unread hread s).symm
  | unknown hread hc hnone =>
    rcases hc with rfl | rfl
    · exact (runStep_of_error hread (runCommand_of_none hnone).1).symm
    · exact (runStep_of_error hread (runCommand_of_none hnone).2).symm
  | failed hread hasks hr =>
    exact (runStep_of_error hread (by rw [runCommand_of_asks hasks, hr])).symm
  | done hread hasks hr =>
    exact (runStep_of_ok hread (by rw [runCommand_of_asks hasks, hr])).symm
  | status hread hr => exact (runStep_of_ok hread (by rw [runCommand_status, hr])).symm
  | noStatus hread hr => exact (runStep_of_error hread (by rw [runCommand_status, hr])).symm

omit [Delegate δ] in
/-- A command either asks for an operation, or shows the settings, or names a savepoint that does not
stand. -/
theorem command_cases (s : Session δ) (c : Command) :
    (∃ op, Asks s c op) ∨ c = .status ∨
      ∃ name, (c = .release name ∨ c = .rollbackTo name) ∧ s.savepoint? name = none := by
  cases c with
  | commit => exact .inl ⟨_, .commit⟩
  | rollback => exact .inl ⟨_, .rollback⟩
  | autoCommit on => exact .inl ⟨_, .autoCommit on⟩
  | smartCommit on => exact .inl ⟨_, .smartCommit on⟩
  | savepoint name => exact .inl ⟨_, .savepoint name⟩
  | release name =>
    cases hsp : s.savepoint? name with
    | some sp => exact .inl ⟨_, .release hsp⟩
    | none => exact .inr (.inr ⟨name, .inl rfl, hsp⟩)
  | rollbackTo name =>
    cases hsp : s.savepoint? name with
    | some sp => exact .inl ⟨_, .rollbackTo hsp⟩
    | none => exact .inr (.inr ⟨name, .inr rfl, hsp⟩)
  | status => exact .inr (.inl rfl)

/-- Something comes of every line on every session. -/
theorem exists_carried (line : String) (s : Session δ) : ∃ x, Carried line s x := by
  cases hread : Command.read line with
  | error e => exact ⟨_, .unread hread⟩
  | ok c =>
    obtain ⟨op, hasks⟩ | rfl | ⟨name, hc, hnone⟩ := command_cases s c
    · cases hr : Controller.perform op s.controller with
      | ok r w => exact ⟨_, .done hread hasks hr⟩
      | error e w => exact ⟨_, .failed hread hasks hr⟩
    · cases hr : Controller.delegateAutoCommit s.controller with
      | ok on w => exact ⟨_, .status hread hr⟩
      | error e w => exact ⟨_, .noStatus hread hr⟩
    · exact ⟨_, .unknown hread hc hnone⟩

/-- **What a step with a meta command comes to** is what its line asks for, and nothing else. -/
theorem carried_iff {x : List String × Option Fault × Session δ} :
    Carried line s x ↔ x = runStep (.command line) s := by
  refine ⟨Carried.eq_runStep, ?_⟩
  rintro rfl
  -- something comes of the line, and nothing but what the step comes to can
  obtain ⟨x, hx⟩ := exists_carried line s
  exact hx.eq_runStep ▸ hx

end Session
end DeferredTx.Shell
