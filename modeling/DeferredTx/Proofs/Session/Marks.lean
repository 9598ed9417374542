import DeferredTx.Proofs.Session.Journal
import DeferredTx.Proofs.Session.Rollback
import DeferredTx.Proofs.Session.Script

/-!
# Names in requests about savepoints

A request about a savepoint takes no parameters, so the name is put into its text. A connection checks
the name that a savepoint is made with; the value that one is rolled back to or released by is taken
as it comes.

* `Request.WellNamed`: keywords, one blank and an identifier; `Call.Sends.wellNamed` says which
  requests are.
* `savepoint_requests_named`: new savepoints are well named all through a life, and all requests are
  if the values are that callers hand in.
* `release_splices_text`: a value from elsewhere can carry SQL.
-/

namespace DeferredTx.Session

variable {σ α : Type}

namespace Journaled

variable {allowed : Request → Prop}

/-- Nothing but `allowed` requests has been sent. -/
def OnlySent (allowed : Request → Prop) (j : Journaled σ) : Prop :=
  ∀ x ∈ j.journal, allowed x.request

theorem kept_onlySent_note {r : Request} (hr : allowed r) (act : EStateM StatementError σ α) :
    Kept (OnlySent allowed) (note r act) := by
  intro j h
  have hstep : ∀ c done, OnlySent allowed (⟨c, j.journal ++
      [⟨r, j.connection.autoCommit, j.connection.inTransaction, done⟩]⟩ : Journaled σ) :=
    fun _ _ => List.forall_mem_append.2 ⟨h, List.forall_mem_singleton.2 hr⟩
  rw [ends_note, Connection.ends_onDatabase]
  split <;> exact hstep _ _

theorem stable_onlySent [Database σ] : StableUnder allowed (OnlySent (σ := σ) allowed) where
  quiet _ _ h := h
  execute hr := kept_onlySent_note hr _
  query hr := kept_onlySent_note hr _
  count _ h := h

end Journaled

/-- The name in a request about a savepoint. -/
def Request.name? : Request → Option String
  | .savepoint name | .rollbackTo name | .release name => some name
  | .begin | .commit | .rollback | .statement _ => none

/-- The keywords in front of it. -/
def Request.keywords : Request → String
  | .savepoint _ => "SAVEPOINT"
  | .rollbackTo _ => "ROLLBACK TO SAVEPOINT"
  | .release _ => "RELEASE SAVEPOINT"
  | .begin | .commit | .rollback | .statement _ => ""

/-- The text of a request, if it is about a savepoint, is made of the keywords, one blank and an
identifier. -/
def Request.WellNamed (r : Request) : Prop :=
  r.isMark = true → ∃ name, Savepoint.IsIdentifier name ∧ r.text = r.keywords ++ " " ++ name

theorem Request.text_of_name {r : Request} {name : String} (h : r.name? = some name) :
    r.text = r.keywords ++ " " ++ name := by
  cases r with
  | savepoint n =>
    cases h
    exact congrArg (· ++ name) (show "SAVEPOINT " = "SAVEPOINT" ++ " " by decide)
  | rollbackTo n =>
    cases h
    exact congrArg (· ++ name) (show "ROLLBACK TO SAVEPOINT " = "ROLLBACK TO SAVEPOINT" ++ " " by decide)
  | release n =>
    cases h
    exact congrArg (· ++ name) (show "RELEASE SAVEPOINT " = "RELEASE SAVEPOINT" ++ " " by decide)
  | begin | commit | rollback | statement => cases h

/-- The text leaves no doubt about the name. -/
theorem Request.wellNamed_iff {r : Request} :
    r.WellNamed ↔ ∀ name, r.name? = some name → Savepoint.IsIdentifier name := by
  have hmark : r.isMark = true ↔ ∃ name, r.name? = some name := by
    cases r <;> simp [isMark, name?]
  rw [WellNamed, hmark]
  constructor
  · intro h name hname
    obtain ⟨name', hident, htext⟩ := h ⟨name, hname⟩
    rw [text_of_name hname, String.append_right_inj] at htext
    exact htext ▸ hident
  · rintro h ⟨name, hname⟩
    exact ⟨name, h name hname, text_of_name hname⟩

/-- The value that a call rolls back to or releases. -/
def Call.given? : Call → Option Savepoint
  | .rollbackTo s | .release s => some s
  | _ => none

/-- A call whose value, if it has one, names an identifier. -/
def Call.GivesIdentifier (k : Call) : Prop :=
  ∀ s, k.given? = some s → Savepoint.IsIdentifier s.sqlName

theorem Call.givesIdentifier_of_none {k : Call} (h : k.given? = none) : k.GivesIdentifier := by
  intro s hs
  rw [h] at hs
  cases hs

theorem isIdentifier_sqlName {name : Option String}
    (h : ∀ n, name = some n → Savepoint.checkName n = .ok ()) (id : UInt32) :
    Savepoint.IsIdentifier (Savepoint.sqlName ⟨id, name⟩) :=
  (Savepoint.checkName_iff_isIdentifier _).1 (Connection.checkName_sqlName h id)

/-- A call sends well named requests, if its value names an identifier where one is used. -/
theorem Call.Sends.wellNamed {k : Call} {r : Request} (h : k.Sends r)
    (hk : r.needsMark = true → k.GivesIdentifier) : r.WellNamed := by
  rw [Request.wellNamed_iff]
  intro name hname
  cases k with
  | setAutoCommit on | commit | rollback =>
    obtain rfl := h
    cases hname
  | setSavepoint name' =>
    obtain rfl | ⟨id, rfl, hchecked⟩ := h
    · cases hname
    · cases hname
      exact isIdentifier_sqlName hchecked id
  | rollbackTo s | release s =>
    obtain rfl := h
    cases hname
    exact hk rfl s rfl
  | execute sql | query sql =>
    obtain rfl | rfl := h <;> cases hname

/-- An operation whose value, if it has one, names an identifier. -/
def Op.GivesIdentifier (op : Op) : Prop :=
  ∀ k, op.own? = some k → k.GivesIdentifier

namespace Journaled

variable [Database σ]

/-- Requests other than rollbacks to savepoints and releases are well named, whatever is called. -/
theorem invariant_named :
    Invariant (OnlySent (σ := σ) fun r => r.needsMark = false → r.WellNamed) :=
  .of_calls (fun _ hj => hj) fun _ => stable_onlySent.perform fun _ hr hfree =>
    hr.wellNamed fun hneeds => absurd (hneeds.symm.trans hfree) nofun

theorem kept_wellNamed {k : Call} (hk : k.GivesIdentifier) :
    Kept (OnlySent Request.WellNamed) (Delegate.perform (δ := Journaled σ) k) :=
  stable_onlySent.perform fun _ hr => hr.wellNamed fun _ => hk

/-- The same through a controller. -/
theorem kept_wellNamed_perform {op : Op} (hop : op.GivesIdentifier) :
    Kept (fun w : Controller (Journaled σ) => w.delegate.OnlySent Request.WellNamed)
      (Controller.perform op) := by
  refine fun w hw => Controller.kept_perform (fun k hk => ?_) hw
  have hcall : ∀ {k : Call}, k.GivesIdentifier →
      Kept (OnlySent Request.WellNamed) (DelegateCall.carryOut (δ := Journaled σ) (.call k)) := by
    intro k hk j hj
    rw [DelegateCall.carryOut, ends_discard]
    exact kept_wellNamed hk j hj
  cases Controller.makes_of_mem_script hk with
  | ask =>
    intro j hj
    rw [DelegateCall.carryOut, ends_discard]
    exact hj
  | turn on => exact hcall (Call.givesIdentifier_of_none rfl)
  | pass hown => exact hcall (hop _ hown)

/-- One request has been sent in between. -/
def SentOnly (r : Request) (j j' : Journaled σ) : Prop :=
  ∃ x : Sending, x.request = r ∧ j'.journal = j.journal ++ [x]

theorem ends_send_sentOnly (r : Request) (j : Journaled σ) :
    Ends (discard (send r)) j (fun _ => SentOnly r j) fun _ => SentOnly r j := by
  rw [ends_discard, send, ends_note, Connection.ends_onDatabase]
  split <;> exact ⟨_, rfl, rfl⟩

/-- A release sends the name that its value has, whatever it is. -/
theorem sentOnly_release (s : Savepoint) (j : Journaled σ) :
    SentOnly (.release s.sqlName) j (stateOf (Delegate.release s j)) :=
  (ends_send_sentOnly _ j).state

/-- So does a rollback to a savepoint, while the flag is off. -/
theorem sentOnly_rollbackTo (s : Savepoint) {j : Journaled σ}
    (hoff : j.connection.autoCommit = false) :
    SentOnly (.rollbackTo s.sqlName) j (stateOf (Delegate.rollbackTo s j)) := by
  have hends : Ends (Delegate.rollbackTo s) j (fun _ => SentOnly (.rollbackTo s.sqlName) j)
      fun _ => SentOnly (.rollbackTo s.sqlName) j := by
    simp only [Delegate.rollbackTo, ends_bind, ends_quietly, Connection.ends_refuseInAutoCommit, hoff,
      Bool.false_eq_true, if_false]
    exact ends_send_sentOnly _ j
  exact hends.state

end Journaled

open Journaled (OnlySent SentOnly)

variable [Database σ]

/-- **Names in requests about savepoints.** A savepoint is made by keywords, one blank and an
identifier of at most 64 characters, all through the life of a connection, whatever has been called,
and the value that comes back names such an identifier. If callers hand in nothing but values that do,
to the connection itself or through a controller, every request about a savepoint is of that form. The
values themselves are not checked: a release sends the name of its value as it is, and so does a
rollback to a savepoint while the flag is off. -/
theorem savepoint_requests_named :
    (∀ j : Journaled σ, Arises Journaled.IsFresh j →
      ∀ x ∈ j.journal, x.request.needsMark = false → x.request.WellNamed) ∧
    (∀ (name : Option String) (c : Connection σ) s c', Delegate.setSavepoint name c = .ok s c' →
      Savepoint.IsIdentifier s.sqlName) ∧
    (∀ s, Returned σ s → Savepoint.IsIdentifier s.sqlName) ∧
    (∀ (j : Journaled σ) calls, (∀ k ∈ calls, Call.GivesIdentifier k) → j.OnlySent Request.WellNamed →
      (run Delegate.perform calls j).2.OnlySent Request.WellNamed) ∧
    (∀ (w : Controller (Journaled σ)) ops, (∀ op ∈ ops, Op.GivesIdentifier op) →
      w.delegate.OnlySent Request.WellNamed →
      (run Controller.perform ops w).2.delegate.OnlySent Request.WellNamed) ∧
    ∀ (s : Savepoint) (j : Journaled σ),
      SentOnly (.release s.sqlName) j (stateOf (Delegate.release s j)) ∧
        (j.connection.autoCommit = false →
          SentOnly (.rollbackTo s.sqlName) j (stateOf (Delegate.rollbackTo s j))) := by
  refine ⟨fun j hj => ?_, fun name c s c' hmade => ?_, fun s hs => ?_, fun j calls hcalls hj => ?_,
    fun w ops hops hw => ?_, fun s j => ?_⟩
  · refine Journaled.invariant_named.arises (fun i hi x hx => ?_) hj
    rw [hi.journal] at hx
    cases hx
  · exact (Savepoint.checkName_iff_isIdentifier _).1
      ((Connection.ends_setSavepoint_name name c).of_ok hmade)
  · exact (Savepoint.checkName_iff_isIdentifier _).1 hs.checkName
  · exact kept_run (fun k hk => Journaled.kept_wellNamed (hcalls k hk)) hj
  · exact kept_run (fun op hop => Journaled.kept_wellNamed_perform (hops op hop)) hw
  · exact ⟨Journaled.sentOnly_release s j, Journaled.sentOnly_rollbackTo s⟩

/-- A savepoint that is made, rolled back to and released by the value that has come back. -/
theorem returned_savepoint_well_named :
    let s : Savepoint := ⟨1, some "a"⟩
    let calls : List Call := [.setAutoCommit false, .setSavepoint (some "a"), .rollbackTo s, .release s]
    let start : Journaled Store := ⟨{ database := {}, kind := .sqlite }, []⟩
    let j := (run Delegate.perform calls start).2
    let w : Controller (Journaled Store) := ⟨start, true, true⟩
    Arises Journaled.IsFresh j ∧ Returned Store s ∧ (∀ k ∈ calls, Call.GivesIdentifier k) ∧
      j.journal.map (·.request.text) =
        ["BEGIN", "SAVEPOINT a", "ROLLBACK TO SAVEPOINT a", "RELEASE SAVEPOINT a"] ∧
      j.OnlySent Request.WellNamed ∧
      (run Controller.perform (calls.map .call) w).2.delegate.OnlySent Request.WellNamed := by
  intro s calls start j w
  obtain ⟨-, -, hreturned, hbare, hunder, -⟩ := savepoint_requests_named (σ := Store)
  have hs : Returned Store s := by
    let c : Controller (Connection Store) := ⟨{ database := {}, kind := .sqlite }, false, true⟩
    have hmade : (match Controller.perform (.call (.setSavepoint (some "a"))) c with
      | .ok (.savepoint t) _ => t == s
      | _ => false) = true := by decide +kernel
    split at hmade
    · obtain rfl := eq_of_beq hmade
      exact ⟨c, _, some "a", ‹_›⟩
    · cases hmade
  have hcalls : ∀ k ∈ calls, Call.GivesIdentifier k := by
    have hgiven : ∀ t, some s = some t → Savepoint.IsIdentifier t.sqlName :=
      fun t ht => Option.some.inj ht ▸ hreturned s hs
    refine List.forall_mem_cons.2 ⟨Call.givesIdentifier_of_none rfl, ?_⟩
    refine List.forall_mem_cons.2 ⟨Call.givesIdentifier_of_none rfl, ?_⟩
    exact List.forall_mem_cons.2 ⟨hgiven, List.forall_mem_singleton.2 hgiven⟩
  have hops : ∀ op ∈ calls.map Op.call, Op.GivesIdentifier op := by
    intro op hop k hk
    obtain ⟨l, hl, rfl⟩ := List.mem_map.1 hop
    cases l with
    | setAutoCommit on => cases hk
    | commit | rollback | setSavepoint | rollbackTo | release | execute | query =>
      cases hk
      exact hcalls _ hl
  have hnone : start.OnlySent Request.WellNamed := List.forall_mem_nil _
  exact ⟨.run calls (.fresh ⟨⟨rfl, rfl, rfl⟩, rfl⟩), hs, hcalls, by decide +kernel,
    hbare start calls hcalls hnone, hunder w _ hops hnone⟩

/-- **A value from elsewhere can carry SQL.** A release by a value that no connection has made sends a
text with a statement of its own behind the keywords, and the store carries it out: the table is
gone. -/
theorem release_splices_text :
    let calls : List Call := [.setAutoCommit false, .execute "CREATE TABLE t (a INTEGER)",
      .setSavepoint none, .release ⟨1, some "sp_1; DROP TABLE t"⟩]
    let j : Journaled Store := (run Delegate.perform calls ⟨{ database := {}, kind := .sqlite }, []⟩).2
    Arises Journaled.IsFresh j ∧ j.journal.map (·.request.text) =
        ["BEGIN", "CREATE TABLE t (a INTEGER)", "SAVEPOINT sp_1",
          "RELEASE SAVEPOINT sp_1; DROP TABLE t"] ∧
      (∃ x ∈ j.journal, x.done = true ∧ ¬x.request.WellNamed) ∧
      j.connection.database.tables.tables.length = 0 := by
  intro calls j
  have hbad : ¬(Request.release "sp_1; DROP TABLE t").WellNamed := by
    rw [Request.wellNamed_iff]
    intro h
    have hident := (Savepoint.checkName_iff_isIdentifier _).2 (h _ rfl)
    exact absurd hident (by decide +kernel)
  have hsent : ⟨.release "sp_1; DROP TABLE t", false, true, true⟩ ∈ j.journal := by decide +kernel
  exact ⟨.run calls (.fresh ⟨⟨rfl, rfl, rfl⟩, rfl⟩), by decide +kernel, ⟨_, hsent, rfl, hbad⟩,
    by decide +kernel⟩

end DeferredTx.Session
