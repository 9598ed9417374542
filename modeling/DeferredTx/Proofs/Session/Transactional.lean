import DeferredTx.Proofs.SavepointName
import DeferredTx.Proofs.Session.Reachable

/-!
# Databases with transactions

* `Phase`: whether a transaction is open, and with which content it has begun.
* `Transactional`: a database whose own statements for transactions do what they say.
* `NoControl`, `ReadOnly`: texts that neither begin nor end a transaction, and texts that do not
  change the content.
* `Undoable`: the invariant of a connection whose work can still be undone: either a `BEGIN` stands in
  front of it, or there is none.
-/

namespace DeferredTx.Session

/-- Whether a transaction is open, and how it has begun. -/
inductive Phase (κ : Type) where
  | idle
  /-- `BEGIN` has opened one, when the content was `before`. -/
  | begun (before : κ)
  /-- Something else has opened one. -/
  | foreign

/-- The requests that a connection makes on its own account, with identifiers for savepoints. -/
def Request.Proper : Request → Prop
  | .statement _ => False
  | .savepoint name | .rollbackTo name | .release name => Savepoint.checkName name = .ok ()
  | .begin | .commit | .rollback => True

/-- The requests about savepoints. -/
def Request.isMark : Request → Bool
  | .savepoint _ | .rollbackTo _ | .release _ => true
  | _ => false

/-- The requests that need a savepoint. -/
def Request.needsMark : Request → Bool
  | .rollbackTo _ | .release _ => true
  | _ => false

/-- A database with transactions. A request of the connection's own that fails changes nothing;
`BEGIN` opens a transaction, `COMMIT` keeps its content, and `ROLLBACK` restores the content that it
has begun with. Requests about savepoints do not end what `BEGIN` has begun, and outside a
transaction those that need a savepoint change nothing, if they do not fail. -/
class Transactional (σ : Type) [Database σ] (κ : outParam Type) where
  content : σ → κ
  phase : σ → Phase κ
  fail {r : Request} (hr : r.Proper) {s s' : σ} {e : StatementError} :
    Database.execute r s = .error e s' → content s' = content s ∧ phase s' = phase s
  begin {s s' : σ} {n : Nat} : phase s = .idle → Database.execute .begin s = .ok n s' →
    content s' = content s ∧ phase s' = .begun (content s)
  commit {s s' : σ} {n : Nat} {before : κ} : phase s = .begun before →
    Database.execute .commit s = .ok n s' → content s' = content s ∧ phase s' = .idle
  rollback {s s' : σ} {n : Nat} {before : κ} : phase s = .begun before →
    Database.execute .rollback s = .ok n s' → content s' = before ∧ phase s' = .idle
  mark {r : Request} (hr : r.Proper) (hm : r.isMark = true) {s s' : σ} {n : Nat} {before : κ} :
    phase s = .begun before → Database.execute r s = .ok n s' → phase s' = .begun before
  outside {r : Request} (hr : r.Proper) (hm : r.needsMark = true) {s s' : σ} {n : Nat} :
    phase s = .idle → Database.execute r s = .ok n s' → content s' = content s ∧ phase s' = .idle

open Transactional (content phase)

variable {σ κ : Type} [Database σ] [Transactional σ κ]

variable (σ) in
/-- A text without transaction control: executed or queried, wherever and however it ends, it neither
begins nor ends a transaction. -/
def NoControl (sql : String) : Prop :=
  ∀ s : σ, phase (stateOf (Database.execute (.statement sql) s)) = phase s ∧
    phase (stateOf (Database.query sql s)) = phase s

variable (σ) in
/-- A text that does not change the content, executed or queried. -/
def ReadOnly (sql : String) : Prop :=
  ∀ s : σ, content (stateOf (Database.execute (.statement sql) s)) = content s ∧
    content (stateOf (Database.query sql s)) = content s

namespace Connection

/-- **The invariant of work that can be undone.** Either no transaction is open and the content is
`S`, or the connection has one open that has begun with the content `S`, and its flag is off. -/
inductive Undoable (S : κ) (c : Connection σ) : Prop where
  | idle (hnot : c.inTransaction = false) (hphase : phase c.database = .idle)
      (hcontent : content c.database = S)
  | begun (hin : c.inTransaction = true) (hoff : c.autoCommit = false)
      (hphase : phase c.database = .begun S)

variable {S : κ} {c : Connection σ}

/-- A proper request that fails leaves the work undoable. -/
theorem Undoable.fail (h : Undoable S c) {r : Request} (hr : r.Proper) {s' : σ} {e : StatementError}
    (he : Database.execute r c.database = .error e s') : Undoable S { c with database := s' } := by
  obtain ⟨hcontent', hphase'⟩ := Transactional.fail hr he
  cases h with
  | idle hnot hphase hcontent =>
    exact .idle hnot (hphase'.trans hphase) (hcontent'.trans hcontent)
  | begun hin hoff hphase => exact .begun hin hoff (hphase'.trans hphase)

/-- The work is undoable behind a `BEGIN` that may be sent; where the flag is off, one has been. -/
theorem Undoable.ends_ensureTransaction (h : Undoable S c) :
    Ends ensureTransaction c
      (fun _ c' => Undoable S c' ∧ c'.autoCommit = c.autoCommit ∧
        (c.autoCommit = false → c'.inTransaction = true))
      fun _ c' => Undoable S c' := by
  simp only [ensureTransaction, ends_bind, ends_get, ends_ite, ends_pure]
  by_cases hneed : (!c.autoCommit && !c.inTransaction) = true
  · rw [if_pos hneed]
    simp only [Bool.and_eq_true, Bool.not_eq_true'] at hneed
    obtain ⟨hoff, hnot⟩ := hneed
    simp only [ends_discard, send, ends_onDatabase]
    cases hr : Database.execute Request.begin c.database with
    | error e s' =>
      have hproper : Request.begin.Proper := trivial
      exact h.fail hproper hr
    | ok n s' =>
      cases h with
      | idle _ hphase hcontent =>
        obtain ⟨-, hbegun⟩ := Transactional.begin hphase hr
        rw [hcontent] at hbegun
        exact ⟨.begun rfl hoff hbegun, by simp⟩
      | begun hin => exact absurd hin (by simp [hnot])
  · rw [if_neg hneed]
    refine ⟨h, trivial, fun hoff => ?_⟩
    simpa [hoff] using hneed

/-- A text of the caller's keeps the work undoable, if a `BEGIN` is in front of it or it does not
change the content. -/
theorem Undoable.text (h : Undoable S c) {s' : σ} (hphase' : phase s' = phase c.database)
    (hsafe : c.inTransaction = true ∨ content s' = content c.database) :
    Undoable S { c with database := s' } := by
  cases h with
  | idle hnot hphase hcontent =>
    rcases hsafe with hin | hsame
    · exact absurd hin (by simp [hnot])
    · exact .idle hnot (hphase'.trans hphase) (hsame.trans hcontent)
  | begun hin hoff hphase => exact .begun hin hoff (hphase'.trans hphase)

/-- The same for an action of the database that runs behind the `BEGIN`. -/
theorem Undoable.ends_text {α : Type} (h : Undoable S c) (act : EStateM StatementError σ α)
    (hact : ∀ s, phase (stateOf (act s)) = phase s)
    (hsafe : c.autoCommit = false ∨ ∀ s, content (stateOf (act s)) = content s) :
    Ends (do ensureTransaction; onDatabase act) c (fun _ c' => Undoable S c')
      fun _ c' => Undoable S c' := by
  rw [ends_bind]
  refine h.ends_ensureTransaction.mono ?_ fun _ _ h' => h'
  rintro - c₁ ⟨h₁, -, hin⟩
  have hstep : Undoable S { c₁ with database := stateOf (act c₁.database) } :=
    h₁.text (hact _) (hsafe.imp hin fun hsame => hsame _)
  rw [ends_onDatabase]
  cases hr : act c₁.database with
  | ok a s' => rw [hr] at hstep; exact hstep
  | error e s' => rw [hr] at hstep; exact hstep

/-- A request about a savepoint leaves the work undoable, in a transaction or if it needs one that is
there. -/
theorem Undoable.ends_mark (h : Undoable S c) {r : Request} (hr : r.Proper) (hm : r.isMark = true)
    (hidle : c.inTransaction = true ∨ r.needsMark = true) :
    Ends (send r) c (fun _ c' => Undoable S c') fun _ c' => Undoable S c' := by
  rw [send, ends_onDatabase]
  cases he : Database.execute r c.database with
  | error e s' => exact h.fail hr he
  | ok n s' =>
    cases h with
    | idle hnot hphase hcontent =>
      rcases hidle with hin | hneeds
      · exact absurd hin (by simp [hnot])
      · obtain ⟨hcontent', hphase'⟩ := Transactional.outside hr hneeds hphase he
        exact .idle hnot hphase' (hcontent'.trans hcontent)
    | begun hin hoff hphase => exact .begun hin hoff (Transactional.mark hr hm hphase he)

/-- Switching the flag off leaves the work undoable. -/
theorem Undoable.setOff (h : Undoable S c) : Undoable S { c with autoCommit := false } := by
  cases h with
  | idle hnot hphase hcontent => exact .idle hnot hphase hcontent
  | begun hin _ hphase => exact .begun hin rfl hphase

end Connection

end DeferredTx.Session
