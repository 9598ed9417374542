import DeferredTx.Proofs.Session.Lifetime
import DeferredTx.Proofs.Session.Rollback

/-!
# Dependable databases

* `Dependable`: a database with transactions on which requests of a connection's own succeed where
  they are legal, and are answered alike in transactions that have come to the same.
* `Settled`, `Determined`: actions, and texts, of which the outcome depends on the content and not on
  the transaction around it.
* `Undoable.ends_ensureTransaction_ok`, `Undoable.ends_endTransaction_ok`: over such a database a
  connection never fails to begin or to end a transaction.
-/

namespace DeferredTx.Session

open Transactional (content phase)

/-- A database with transactions on which `BEGIN`, `COMMIT` and `ROLLBACK` succeed where they are
legal. Two transactions with the same beginning, content and savepoints answer requests about
savepoints alike, and are alike behind them. -/
class Dependable (σ : Type) [Database σ] (κ μ τ : outParam Type) extends Transactional σ κ where
  /-- The savepoints of the open transaction. -/
  marks : σ → μ
  /-- The savepoints of a transaction that has just begun. -/
  unmarked : μ
  /-- What is remembered apart from the content and the transaction, such as how many rows the last
  change has affected. -/
  memory : σ → τ
  begin_ok {s : σ} : phase s = .idle →
    ∃ n s', Database.execute .begin s = .ok n s' ∧ marks s' = unmarked ∧ memory s' = memory s
  commit_ok {s : σ} {before : κ} : phase s = .begun before →
    ∃ n s', Database.execute .commit s = .ok n s' ∧ memory s' = memory s
  rollback_ok {s : σ} {before : κ} : phase s = .begun before →
    ∃ n s', Database.execute .rollback s = .ok n s' ∧ memory s' = memory s
  mark_alike {r : Request} (hr : r.Proper) (hm : r.isMark = true) {s t : σ} {before : κ} :
    phase s = .begun before → phase t = .begun before → content s = content t →
    marks s = marks t → memory s = memory t →
    answerOf (Database.execute r s) = answerOf (Database.execute r t) ∧
      content (stateOf (Database.execute r s)) = content (stateOf (Database.execute r t)) ∧
      marks (stateOf (Database.execute r s)) = marks (stateOf (Database.execute r t)) ∧
      memory (stateOf (Database.execute r s)) = memory (stateOf (Database.execute r t))

open Dependable (marks unmarked memory)

variable {σ κ μ τ α : Type} [Database σ] [Dependable σ κ μ τ]

/-- An action that leaves the transaction and its savepoints alone, and of which the answer and the
effect depend on the content and the memory alone. -/
structure Settled (act : EStateM StatementError σ α) : Prop where
  keepsPhase (s : σ) : phase (stateOf (act s)) = phase s
  keepsMarks (s : σ) : marks (stateOf (act s)) = marks s
  alike (s t : σ) : content s = content t → memory s = memory t →
    answerOf (act s) = answerOf (act t) ∧
      content (stateOf (act s)) = content (stateOf (act t)) ∧
      memory (stateOf (act s)) = memory (stateOf (act t))

variable (σ) in
/-- A text without transaction control, of which the outcome is determined by what it is run on:
executed or queried, inside a transaction or outside. -/
structure Determined (sql : String) : Prop where
  execute : Settled (Database.execute (σ := σ) (.statement sql))
  query : Settled (Database.query (σ := σ) sql)

namespace Connection

variable {S : κ} {c : Connection σ}

theorem Undoable.phase_of_open (h : c.Undoable S) (hin : c.inTransaction = true) :
    phase c.database = .begun S := by
  cases h with
  | idle hnot => exact absurd hin (by simp [hnot])
  | begun _ _ hphase => exact hphase

/-- A connection that has a transaction open has its flag off. -/
theorem Undoable.off_of_open (h : c.Undoable S) (hin : c.inTransaction = true) :
    c.autoCommit = false := by
  cases h with
  | idle hnot => exact absurd hin (by simp [hnot])
  | begun _ hoff _ => exact hoff

/-- A request about a savepoint in an open transaction. -/
theorem Undoable.mark (h : c.Undoable S) (hin : c.inTransaction = true) {r : Request}
    (hr : r.Proper) (hm : r.isMark = true) :
    Undoable S { c with database := stateOf (Database.execute r c.database) } := by
  have hends := h.ends_mark hr hm (.inl hin)
  rw [send, ends_onDatabase] at hends
  cases he : Database.execute r c.database <;> rw [he] at hends <;> exact hends

/-- What a `BEGIN` makes of a connection: nothing but the transaction is new. -/
structure Begun (c c' : Connection σ) : Prop where
  content : content c'.database = content c.database
  memory : memory c'.database = memory c.database
  marks : marks c'.database = unmarked σ
  autoCommit : c'.autoCommit = c.autoCommit
  savepoints : c'.savepoints = c.savepoints
  inTransaction : c'.inTransaction = true

/-- A connection whose flag is off has a transaction open behind the `BEGIN` that may be sent. -/
theorem Undoable.ends_ensureTransaction_ok (h : c.Undoable S) :
    Ends ensureTransaction c
      (fun _ c' => c'.Undoable S ∧
        if c.autoCommit = false ∧ c.inTransaction = false then Begun c c' else c' = c)
      fun _ _ => False := by
  have hundoable := h.ends_ensureTransaction
  simp only [ensureTransaction, ends_bind, ends_get, ends_ite, ends_pure, ends_discard, send,
    ends_onDatabase, ends_modify] at hundoable ⊢
  by_cases hneed : c.autoCommit = false ∧ c.inTransaction = false
  · obtain ⟨hoff, hnot⟩ := hneed
    have hidle : phase c.database = .idle := (h.ended hnot).phase
    obtain ⟨n, s', hs', hmarks, hmemory⟩ := Dependable.begin_ok hidle
    obtain ⟨hcontent, -⟩ := Transactional.begin hidle hs'
    simp only [hoff, hnot, hs', Bool.not_false, Bool.and_self, if_true] at hundoable ⊢
    simp only [and_self, if_true]
    exact ⟨hundoable.1, hcontent, hmemory, hmarks, hoff.symm, rfl, rfl⟩
  · have hno : (!c.autoCommit && !c.inTransaction) = false := by
      cases hoff : c.autoCommit <;> cases hnot : c.inTransaction <;> simp_all
    rw [if_neg (by simp [hno])]
    rw [if_neg hneed]
    exact ⟨h, trivial⟩

/-- The end of an open transaction, or of none, by what the database makes of the request. -/
theorem Undoable.ends_endTransaction_ok (h : c.Undoable S) {r : Request} {after : κ}
    (hr : phase c.database = .begun S → ∃ n s', Database.execute r c.database = .ok n s' ∧
      content s' = after ∧ phase s' = .idle ∧ memory s' = memory c.database)
    (hnone : c.Ended S → c.Ended after) :
    Ends (endTransaction r) c
      (fun _ c' => c'.Ended after ∧ memory c'.database = memory c.database ∧
        c'.autoCommit = c.autoCommit ∧ c'.savepoints = c.savepoints)
      fun _ _ => False := by
  simp only [endTransaction, ends_bind, ends_get, ends_ite, ends_pure, ends_discard, send,
    ends_onDatabase, ends_modify]
  cases hin : c.inTransaction with
  | false => exact ⟨hnone (h.ended hin), trivial, trivial, trivial⟩
  | true =>
    cases h with
    | idle hnot => exact absurd hin (by simp [hnot])
    | begun _ hoff hphase =>
      obtain ⟨n, s', hs', hcontent, hidle, hmemory⟩ := hr hphase
      simp only [if_true, hs']
      exact ⟨⟨hcontent, hidle, rfl⟩, hmemory, trivial, trivial⟩

end Connection

end DeferredTx.Session
