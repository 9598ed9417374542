import DeferredTx.Proofs.Session.Marks
import DeferredTx.Proofs.Shell.Carried

/-!
# The table of savepoints

A session looks savepoints up by their names in SQL. What the table shows is a matter of the commands
that have succeeded so far, and of nothing else.

* `TableEvent`, `Session.history`: the commands that have made a savepoint or released one.
* `Standing`: a savepoint has been made under a name, and nothing has happened to that name since.
* `savepoint?_perform`, `savepoint?_performAll`: the table behind a step, and behind many.
* `table_shows_standing`: **the table shows what stands**, other names reach no connection, and every
  name that a session sends in a request about savepoints is an identifier.
-/

namespace DeferredTx.Shell

open DeferredTx.Session (Action Call Connection Controller Database Delegate Ends Journaled Keeps Kept
  Op Reply Request Returned bind_of_error bind_of_ok ends_bind ends_modify ends_pure keeps_bind
  kept_bind kept_pure stateOf)

/-- What a command has done to the table. -/
inductive TableEvent where
  | made (sp : Savepoint)
  | released (name : String)
  deriving DecidableEq, Repr

namespace TableEvent

/-- The name that an event is about. -/
def name : TableEvent → String
  | made sp => sp.sqlName
  | released name => name

/-- What stands under that name behind it. -/
def leaves : TableEvent → Option Savepoint
  | made sp => some sp
  | released _ => none

end TableEvent

/-- A savepoint has been made under a name, and none has been made or released under it since. -/
def Standing (events : List TableEvent) (name : String) (sp : Savepoint) : Prop :=
  ∃ earlier later, events = earlier ++ .made sp :: later ∧ sp.sqlName = name ∧
    ∀ e ∈ later, e.name ≠ name

namespace Session

variable {δ α : Type} [Delegate δ]

/-- What a command does to the table if it is carried out now. -/
def commandEvent? (c : Command) (s : Session δ) : Option TableEvent :=
  match c with
  | .savepoint name =>
    match Controller.setSavepoint name s.controller with
    | .ok sp _ => some (.made sp)
    | .error .. => none
  | .release name =>
    match runCommand (.release name) s with
    | .ok .. => some (.released name)
    | .error .. => none
  | _ => none

/-- What a step does to the table. SQL text never does anything to it. -/
def event? (step : Step) (s : Session δ) : Option TableEvent :=
  match step with
  | .run _ => none
  | .command line =>
    match Command.read line with
    | .ok c => commandEvent? c s
    | .error _ => none

/-- What steps do to the table, in their order. -/
def history : List Step → Session δ → List TableEvent
  | [], _ => []
  | step :: more, s => (event? step s).toList ++ history more (perform step s).2

/-- What stands under a name behind an event. -/
def shows (e : Option TableEvent) (s : Session δ) (name : String) : Option Savepoint :=
  match e with
  | some e => if e.name = name then e.leaves else s.savepoint? name
  | none => s.savepoint? name

section Steps

variable {s s' : Session δ}

omit [Delegate δ] in
theorem savepoint?_of_savepoints (h : s'.savepoints = s.savepoints) (name : String) :
    s'.savepoint? name = s.savepoint? name := by
  unfold savepoint?
  rw [h]

omit [Delegate δ] in
/-- The controller has nothing to do with the table. -/
theorem keeps_savepoints (act : Action (Controller δ) α) :
    Keeps (fun s : Session δ => s.savepoints) (onController act) := by
  intro s
  rw [ends_onController]
  unfold Ends
  cases act s.controller <;> rfl

theorem keeps_runStatement (sql : String) :
    Keeps (fun s : Session δ => s.savepoints) (runStatement sql) := by
  have hpure : ∀ lines : List String,
      Keeps (fun s : Session δ => s.savepoints) (pure lines : Run δ (List String)) :=
    fun _ _ => rfl
  unfold runStatement
  split
  · exact fun _ => rfl
  · split
    · exact keeps_bind (keeps_savepoints _) fun _ => hpure _
    · exact keeps_bind (keeps_savepoints _) fun _ => hpure _

theorem savepoints_runAll (sqls : List String) (s : Session δ) :
    (runAll sqls s).2.2.savepoints = s.savepoints := by
  induction sqls generalizing s with
  | nil => rfl
  | cons sql more ih =>
    have hfirst : (stateOf (runStatement sql s)).savepoints = s.savepoints :=
      (keeps_runStatement sql s).state (P := fun t : Session δ => t.savepoints = s.savepoints)
    simp only [runAll]
    cases hr : runStatement sql s with
    | error e s' =>
      rw [hr] at hfirst
      exact hfirst
    | ok lines s' =>
      rw [hr] at hfirst
      exact (ih s').trans hfirst

omit [Delegate δ] in
/-- A command behind which the table is as before. -/
theorem savepoint?_of_keeps {act : Run δ α} (h : Keeps (fun s : Session δ => s.savepoints) act)
    (s : Session δ) (name : String) : (stateOf (act s)).savepoint? name = shows none s name :=
  savepoint?_of_savepoints ((h s).state (P := fun t : Session δ => t.savepoints = s.savepoints)) name

/-- A new savepoint stands under its name as soon as it has been made. -/
theorem savepoint?_savepoint (chosen : Option String) (s : Session δ) (name : String) :
    (stateOf (runCommand (.savepoint chosen) s)).savepoint? name =
      shows (commandEvent? (.savepoint chosen) s) s name := by
  simp only [runCommand, commandEvent?, bind, EStateM.bind, onController]
  cases Controller.setSavepoint chosen s.controller with
  | error e c => rfl
  | ok sp c => exact savepoint?_keep sp { s with controller := c } name

/-- A release takes its name off the table if it succeeds; if it fails the table is as before. -/
theorem savepoint?_release (gone : String) (s : Session δ) (name : String) :
    (stateOf (runCommand (.release gone) s)).savepoint? name =
      shows (commandEvent? (.release gone) s) s name := by
  have hends : Ends (runCommand (.release gone)) s
      (fun _ s' => ∃ s₁ : Session δ, s₁.savepoints = s.savepoints ∧ s' = s₁.forget gone)
      fun _ s' => s'.savepoints = s.savepoints := by
    simp only [runCommand, ends_bind]
    refine ends_find gone (fun sp _ => ?_) fun _ => rfl
    refine (keeps_savepoints (Controller.release sp) s).mono (fun _ s₁ h₁ => ?_) fun _ _ h₁ => h₁
    exact ⟨s₁, h₁, rfl⟩
  simp only [commandEvent?]
  cases hr : runCommand (.release gone) s with
  | error e s' => exact savepoint?_of_savepoints (hends.of_error hr) name
  | ok lines s' =>
    obtain ⟨s₁, h₁, rfl⟩ := hends.of_ok hr
    rw [stateOf, savepoint?_forget, savepoint?_of_savepoints h₁]
    rfl

/-- **The table behind a command** shows what the command has done to it. -/
theorem savepoint?_runCommand (c : Command) (s : Session δ) (name : String) :
    (stateOf (runCommand c s)).savepoint? name = shows (commandEvent? c s) s name := by
  have hdone : ∀ act : Action (Controller δ) Unit,
      Keeps (fun s : Session δ => s.savepoints) (do onController act; return ([] : List String)) :=
    fun act => keeps_bind (keeps_savepoints act) fun _ _ => rfl
  cases c with
  | commit => exact savepoint?_of_keeps (hdone _) s name
  | rollback => exact savepoint?_of_keeps (hdone _) s name
  | autoCommit on => exact savepoint?_of_keeps (hdone _) s name
  | smartCommit on => exact savepoint?_of_keeps (hdone _) s name
  | savepoint chosen => exact savepoint?_savepoint chosen s name
  | release gone => exact savepoint?_release gone s name
  | rollbackTo target =>
    have hkeeps : Keeps (fun s : Session δ => s.savepoints) (runCommand (.rollbackTo target)) := by
      intro s
      simp only [runCommand, ends_bind]
      exact ends_find target (fun sp _ => keeps_savepoints _ s) fun _ => rfl
    exact savepoint?_of_keeps hkeeps s name
  | status =>
    have hkeeps : Keeps (fun s : Session δ => s.savepoints) (runCommand .status) :=
      keeps_bind (keeps_bind (keeps_savepoints _) fun _ _ => rfl) fun _ _ => rfl
    exact savepoint?_of_keeps hkeeps s name

theorem perform_command (line : String) (s : Session δ) :
    (perform (.command line) s).2 = stateOf (runLine line s) := by
  simp only [perform, runStep]
  cases runLine line s <;> rfl

/-- **The table behind a step.** -/
theorem savepoint?_perform (step : Step) (s : Session δ) (name : String) :
    (perform step s).2.savepoint? name = shows (event? step s) s name := by
  cases step with
  | run text => exact savepoint?_of_savepoints (savepoints_runAll _ s) name
  | command line =>
    rw [perform_command]
    simp only [runLine, event?]
    cases Command.read line with
    | error e => rfl
    | ok c => exact savepoint?_runCommand c s name

end Steps

omit [Delegate δ] in
/-- What stands behind an event has been made by it, or stood before. -/
theorem eq_made_or_of_shows {e : Option TableEvent} {s : Session δ} {name : String} {sp : Savepoint}
    (h : shows e s name = some sp) : e = some (.made sp) ∨ s.savepoint? name = some sp := by
  unfold shows at h
  split at h
  · rename_i e
    split at h
    · cases e with
      | made sp' => exact Or.inl (congrArg (some ∘ TableEvent.made) (Option.some.inj h))
      | released gone => cases h
    · exact Or.inr h
  · exact Or.inr h

/-- A savepoint that a step makes has been given by the controller. -/
theorem exists_of_event_made {step : Step} {s : Session δ} {sp : Savepoint}
    (h : event? step s = some (.made sp)) :
    ∃ chosen w w', Controller.setSavepoint (δ := δ) chosen w = .ok sp w' := by
  cases step with
  | run text => cases h
  | command line =>
    simp only [event?] at h
    cases hread : Command.read line with
    | error e =>
      rw [hread] at h
      cases h
    | ok c =>
      rw [hread] at h
      cases c with
      | savepoint chosen =>
        simp only [commandEvent?] at h
        cases hset : Controller.setSavepoint chosen s.controller with
        | error e w =>
          rw [hset] at h
          cases h
        | ok sp' w =>
          rw [hset] at h
          cases h
          exact ⟨chosen, _, w, hset⟩
      | release gone =>
        simp only [commandEvent?] at h
        split at h <;> cases h
      | commit | rollback | autoCommit | smartCommit | rollbackTo | status => cases h

/-- What the first of several steps does comes before the rest. -/
theorem standing_toList_append {e : Option TableEvent} {events : List TableEvent} {name : String}
    {sp : Savepoint} :
    Standing (e.toList ++ events) name sp ↔ Standing events name sp ∨
      (e = some (.made sp) ∧ sp.sqlName = name ∧ ∀ e' ∈ events, e'.name ≠ name) := by
  constructor
  · rintro ⟨earlier, later, heq, hname, hlater⟩
    cases e with
    | none => exact Or.inl ⟨earlier, later, heq, hname, hlater⟩
    | some e =>
      cases earlier with
      | nil =>
        obtain ⟨rfl, rfl⟩ := List.cons.inj heq
        exact Or.inr ⟨rfl, hname, hlater⟩
      | cons e' earlier =>
        obtain ⟨-, hrest⟩ := List.cons.inj heq
        exact Or.inl ⟨earlier, later, hrest, hname, hlater⟩
  · rintro (⟨earlier, later, rfl, hname, hlater⟩ | ⟨rfl, hname, hlater⟩)
    · exact ⟨e.toList ++ earlier, later, by rw [List.append_assoc], hname, hlater⟩
    · exact ⟨[], events, rfl, hname, hlater⟩

/-- **The table behind steps.** A savepoint stands under a name if one of them has made it and no later
one was about that name, or if it stood there before and none of them was about that name. -/
theorem savepoint?_performAll (steps : List Step) (s : Session δ) (name : String) (sp : Savepoint) :
    (performAll steps s).2.savepoint? name = some sp ↔
      Standing (history steps s) name sp ∨
        (s.savepoint? name = some sp ∧ ∀ e ∈ history steps s, e.name ≠ name) := by
  induction steps generalizing s with
  | nil =>
    have hnone : ¬Standing [] name sp := by
      rintro ⟨earlier, later, heq, -⟩
      simp at heq
    simp [performAll, history, hnone]
  | cons step more ih =>
    have hrest := ih (perform step s).2
    have hstep := savepoint?_perform step s name
    simp only [performAll, history, standing_toList_append, hrest, hstep, List.mem_append,
      Option.mem_toList]
    generalize history more (perform step s).2 = events
    cases event? step s with
    | none => simp [shows]
    | some e =>
      simp only [shows, Option.some.injEq]
      by_cases hname : e.name = name
      · -- what stood under the name before is out of reach
        rw [if_pos hname]
        have hbefore : ¬∀ e' : TableEvent, e = e' ∨ e' ∈ events → e'.name ≠ name :=
          fun h => h e (Or.inl rfl) hname
        cases e with
        | made sp' =>
          simp only [TableEvent.leaves, Option.some.injEq, TableEvent.made.injEq]
          constructor
          · rintro (h | ⟨rfl, h⟩)
            · exact Or.inl (Or.inl h)
            · exact Or.inl (Or.inr ⟨rfl, hname, h⟩)
          · rintro ((h | ⟨rfl, -, h⟩) | ⟨-, h⟩)
            · exact Or.inl h
            · exact Or.inr ⟨rfl, h⟩
            · exact absurd h hbefore
        | released gone =>
          simp only [TableEvent.leaves, reduceCtorEq, false_and, or_false]
          constructor
          · exact Or.inl
          · rintro (h | ⟨-, h⟩)
            · exact h
            · exact absurd h hbefore
      · rw [if_neg hname]
        have hother : ¬(e = .made sp ∧ sp.sqlName = name ∧ ∀ e' ∈ events, e'.name ≠ name) := by
          rintro ⟨rfl, h, -⟩
          exact hname h
        have hall : (∀ e' : TableEvent, e = e' ∨ e' ∈ events → e'.name ≠ name) ↔
            ∀ e' ∈ events, e'.name ≠ name := by
          constructor
          · exact fun h e' he' => h e' (Or.inr he')
          · rintro h e' (rfl | he')
            · exact hname
            · exact h e' he'
        simp only [hother, or_false, hall]

section Names

variable {σ : Type} [Database σ]

/-- Every request about a savepoint that has been sent was well named. -/
def SentNamed (s : Session (Journaled σ)) : Prop :=
  s.controller.delegate.OnlySent Request.WellNamed

/-- So was every one, and so is every savepoint of the table. -/
structure Named (s : Session (Journaled σ)) : Prop where
  sent : s.SentNamed
  table : ∀ name sp, s.savepoint? name = some sp → Savepoint.IsIdentifier sp.sqlName

/-- A controller gives well named savepoints, with a journal as without. -/
theorem isIdentifier_of_setSavepoint {chosen : Option String} {w w' : Controller (Journaled σ)}
    {sp : Savepoint} (h : Controller.setSavepoint chosen w = .ok sp w') :
    Savepoint.IsIdentifier sp.sqlName := by
  let bare : Controller (Connection σ) := ⟨w.delegate.connection, w.autoCommit, w.smartCommit⟩
  have hagree := Controller.simulates_setSavepoint Journaled.journaled_sim chosen w bare ⟨rfl, rfl, rfl⟩
  rw [h] at hagree
  cases hr : Controller.setSavepoint chosen bare with
  | error e c =>
    rw [hr] at hagree
    cases hagree
  | ok sp' c =>
    rw [hr] at hagree
    cases hagree
    have hreturned : Returned σ sp := ⟨bare, c, chosen, bind_of_ok hr⟩
    exact (Savepoint.checkName_iff_isIdentifier _).1 hreturned.checkName

omit [Database σ] in
theorem givesIdentifier_of_none {op : Op} (h : op.own?.bind Call.given? = none) :
    op.GivesIdentifier := by
  intro k hk
  rw [hk] at h
  exact Call.givesIdentifier_of_none h

/-- An action of the controller's sends well named requests if the value that it is given is. -/
theorem kept_sentNamed {op : Op} (hop : op.GivesIdentifier) {act : Action (Controller (Journaled σ)) α}
    {f : α → Reply} (hact : Controller.perform op = (do return f (← act))) :
    Kept (SentNamed (σ := σ)) (onController act) := by
  refine kept_onController fun _ w hw => ?_
  have hperform := Journaled.kept_wellNamed_perform hop w hw
  rw [hact, ends_bind] at hperform
  exact hperform

/-- A command sends the names that stand in the table, and no others. -/
theorem Named.ends_runCommand {s : Session (Journaled σ)} (h : s.Named) (c : Command) :
    Ends (runCommand c) s (fun _ => SentNamed) fun _ => SentNamed := by
  have hplain : ∀ (op : Op) {act : Action (Controller (Journaled σ)) Unit},
      op.own?.bind Call.given? = none → Controller.perform op = (do act; return .done) →
      Ends (do onController act; return ([] : List String)) s (fun _ => SentNamed)
        fun _ => SentNamed := by
    intro op act hop hact
    exact kept_bind (kept_sentNamed (f := fun _ => .done) (givesIdentifier_of_none hop) hact)
      (fun _ => kept_pure _) s h.sent
  -- the value of a name in the table is the one that has been kept under it
  have hgiven : ∀ {sp : Savepoint} {name : String}, s.savepoint? name = some sp →
      ∀ t, some sp = some t → Savepoint.IsIdentifier t.sqlName :=
    fun hsp t ht => Option.some.inj ht ▸ h.table _ _ hsp
  cases c with
  | commit => exact hplain (.call .commit) rfl rfl
  | rollback => exact hplain (.call .rollback) rfl rfl
  | autoCommit on => exact hplain (.call (.setAutoCommit on)) rfl rfl
  | smartCommit on => exact hplain (.setSmartCommit on) rfl rfl
  | savepoint chosen =>
    have hop : (Op.call (.setSavepoint chosen)).GivesIdentifier := givesIdentifier_of_none rfl
    have hset := kept_sentNamed (σ := σ) hop (f := Reply.savepoint) rfl s h.sent
    simp only [runCommand, ends_bind, ends_modify, ends_pure]
    exact hset
  | release gone =>
    simp only [runCommand, ends_bind, ends_modify, ends_pure]
    refine ends_find gone (fun sp hsp => ?_) fun _ => h.sent
    have hop : (Op.call (.release sp)).GivesIdentifier := by
      rintro k ⟨⟩
      exact hgiven hsp
    exact kept_sentNamed hop (f := fun _ => .done) rfl s h.sent
  | rollbackTo target =>
    simp only [runCommand, ends_bind, ends_pure]
    refine ends_find target (fun sp hsp => ?_) fun _ => h.sent
    have hop : (Op.call (.rollbackTo sp)).GivesIdentifier := by
      rintro k ⟨⟩
      exact hgiven hsp
    exact kept_sentNamed hop (f := fun _ => .done) rfl s h.sent
  | status =>
    -- the question for the flag sends nothing
    exact h.sent

theorem kept_runStatement (sql : String) : Kept (SentNamed (σ := σ)) (runStatement sql) := by
  have hasks : (Op.call (.query sql)).GivesIdentifier := givesIdentifier_of_none rfl
  have hquery := kept_sentNamed (σ := σ) hasks (f := Reply.rows) rfl
  have hchanges : (Op.call (.execute sql)).GivesIdentifier := givesIdentifier_of_none rfl
  have hexecute := kept_sentNamed (σ := σ) hchanges (f := Reply.count) rfl
  unfold runStatement
  split
  · exact fun _ h => h
  · split
    · exact kept_bind hquery fun _ => kept_pure _
    · exact kept_bind hexecute fun _ => kept_pure _

theorem sentNamed_runAll (sqls : List String) {s : Session (Journaled σ)} (h : s.SentNamed) :
    (runAll sqls s).2.2.SentNamed := by
  induction sqls generalizing s with
  | nil => exact h
  | cons sql more ih =>
    have hfirst : (stateOf (runStatement sql s)).SentNamed := (kept_runStatement sql s h).state
    simp only [runAll]
    cases hr : runStatement sql s with
    | error e s' =>
      rw [hr] at hfirst
      exact hfirst
    | ok lines s' =>
      rw [hr] at hfirst
      exact ih hfirst

/-- A step leaves a session behind that is well named again. -/
theorem Named.perform {s : Session (Journaled σ)} (h : s.Named) (step : Step) :
    (perform step s).2.Named := by
  refine ⟨?_, fun name sp hsp => ?_⟩
  · cases step with
    | run text => exact sentNamed_runAll _ h.sent
    | command line =>
      rw [perform_command]
      unfold runLine
      cases Command.read line with
      | error e => exact h.sent
      | ok c => exact (h.ends_runCommand c).state
  · rw [savepoint?_perform] at hsp
    rcases eq_made_or_of_shows hsp with hmade | hbefore
    · obtain ⟨chosen, w, w', hset⟩ := exists_of_event_made hmade
      exact isIdentifier_of_setSavepoint hset
    · exact h.table name sp hbefore

theorem Named.performAll (steps : List Step) {s : Session (Journaled σ)} (h : s.Named) :
    (performAll steps s).2.Named := by
  induction steps generalizing s with
  | nil => exact h
  | cons step more ih => exact ih (h.perform step)

end Names

/-- **The table shows what stands.** Take a script up to any of its lines, on a session whose table is
empty at first. Behind it the table has exactly the names in SQL under which a savepoint has been made
and not been released since, each with the savepoint that was made last. A command that releases
another name, or rolls back to one, fails, and the delegate, whatever it is and whatever it counts, is
as before, so that it has not been called. Over a connection, every text that asks for a savepoint, a
rollback to one or a release is made of the keywords and a name that the check of names accepts. -/
theorem table_shows_standing {σ : Type} [Database σ] (lines : List String) :
    (∀ s : Session δ, s.savepoints = [] →
      let steps := (stepsFrom "" lines).1
      let last := (performAll steps s).2
      (∀ name sp, last.savepoint? name = some sp ↔ Standing (history steps s) name sp) ∧
        ∀ name, (¬∃ sp, Standing (history steps s) name sp) →
          runCommand (.release name) last = .error (.unknownSavepoint name) last ∧
            runCommand (.rollbackTo name) last = .error (.unknownSavepoint name) last) ∧
    ∀ s : Session (Journaled σ), s.savepoints = [] → s.controller.delegate.journal = [] →
      ∀ x ∈ (performAll (stepsFrom "" lines).1 s).2.controller.delegate.journal,
        ∀ name, x.request.name? = some name → Savepoint.checkName name = .ok () ∧
          x.request.text = x.request.keywords ++ " " ++ name := by
  have hempty : ∀ {ε : Type} {s : Session ε}, s.savepoints = [] → ∀ name, s.savepoint? name = none := by
    intro ε s hs name
    unfold savepoint?
    rw [hs]
    rfl
  refine ⟨fun s hs => ?_, fun s hs hjournal x hx name hname => ?_⟩
  · intro steps last
    have hshows : ∀ name sp, last.savepoint? name = some sp ↔ Standing (history steps s) name sp := by
      intro name sp
      rw [savepoint?_performAll, hempty hs]
      simp
    refine ⟨hshows, fun name hnone => ?_⟩
    refine runCommand_of_none (Option.eq_none_iff_forall_not_mem.2 fun sp hsp => ?_)
    exact hnone ⟨sp, (hshows name sp).1 hsp⟩
  · have hstart : s.Named := by
      refine ⟨fun y hy => ?_, fun n sp hsp => ?_⟩
      · rw [hjournal] at hy
        cases hy
      · rw [hempty hs] at hsp
        cases hsp
    have hident : Savepoint.IsIdentifier name :=
      Request.wellNamed_iff.1 ((hstart.performAll _).sent x hx) name hname
    exact ⟨(Savepoint.checkName_iff_isIdentifier name).2 hident, Request.text_of_name hname⟩

/-- A name that is made twice and released once, over a store: another release of it sends nothing. -/
theorem table_of_savepoints :
    let s : Session (Journaled Store) :=
      { controller := ⟨⟨{ database := {}, kind := .sqlite }, []⟩, true, true⟩, kind := .sqlite }
    let lines := ["\\autocommit off", "\\savepoint a", "\\savepoint", "\\savepoint a",
      "\\rollback_to a", "\\release a", "\\release a"]
    let last := (performAll (stepsFrom "" lines).1 s).2
    s.savepoints = [] ∧ s.controller.delegate.journal = [] ∧
      history (stepsFrom "" lines).1 s =
        [.made ⟨1, some "a"⟩, .made ⟨2, none⟩, .made ⟨3, some "a"⟩, .released "a"] ∧
      last.savepoint? "sp_2" = some ⟨2, none⟩ ∧ last.savepoint? "a" = none ∧
      last.controller.delegate.journal.map (·.request.text) = ["BEGIN", "SAVEPOINT a",
        "SAVEPOINT sp_2", "SAVEPOINT a", "ROLLBACK TO SAVEPOINT a", "RELEASE SAVEPOINT a"] ∧
      ∀ x ∈ last.controller.delegate.journal, ∀ name, x.request.name? = some name →
        Savepoint.checkName name = .ok () ∧ x.request.text = x.request.keywords ++ " " ++ name := by
  intro s lines last
  obtain ⟨htable, hnames⟩ := table_shows_standing (δ := Journaled Store) (σ := Store) lines
  obtain ⟨hshows, -⟩ := htable s rfl
  have hhistory : history (stepsFrom "" lines).1 s =
      [.made ⟨1, some "a"⟩, .made ⟨2, none⟩, .made ⟨3, some "a"⟩, .released "a"] := by
    decide +kernel
  have hunnamed : last.savepoint? "sp_2" = some ⟨2, none⟩ := by
    rw [hshows, hhistory]
    exact ⟨[.made ⟨1, some "a"⟩], [.made ⟨3, some "a"⟩, .released "a"], rfl, by decide, by decide⟩
  exact ⟨rfl, rfl, hhistory, hunnamed, by decide +kernel, by decide +kernel, hnames s rfl rfl⟩

end Session
end DeferredTx.Shell
