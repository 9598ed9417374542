import DeferredTx.Proofs.Session.Dependable
import DeferredTx.Proofs.Session.PassThrough

/-!
# Twin connections

Two connections do the same work, but only one of them has to begin a transaction at once. Up to the
first write the other one has the content that the last transaction has left, so that nobody can tell
them apart.

* `Connection.Twins`: a connection whose transaction may be deferred, and one that has it open.
* `Twins.agree_text`, `Twins.agree_mark`: texts, and requests about savepoints, have the same answer on
  both.
* `Twins.endTransaction`, `Twins.setSavepoint`: so have the ends of a transaction, and savepoints.
-/

namespace DeferredTx.Session

open Transactional (content phase)
open Dependable (marks unmarked memory)

variable {σ κ μ τ α : Type}

namespace Connection

variable {c d : Connection σ}

/-- An action of the database with the same answer on both sides. -/
theorem agree_onDatabase {R : Connection σ → Connection σ → Prop} {act : EStateM StatementError σ α}
    (hanswer : answerOf (act c.database) = answerOf (act d.database))
    (hnext : R { c with database := stateOf (act c.database) }
      { d with database := stateOf (act d.database) }) :
    Agree R (onDatabase act c) (onDatabase act d) := by
  unfold onDatabase
  cases hc : act c.database with
  | ok a s =>
    cases hd : act d.database with
    | ok a' t =>
      rw [hc, hd] at hanswer hnext
      obtain rfl : a = a' := Except.ok.inj hanswer
      exact .ok a hnext
    | error e t => rw [hc, hd] at hanswer; cases hanswer
  | error e s =>
    cases hd : act d.database with
    | ok a t => rw [hc, hd] at hanswer; cases hanswer
    | error e' t =>
      rw [hc, hd] at hanswer hnext
      obtain rfl : e = e' := Except.error.inj hanswer
      exact .error _ hnext

/-- A name is refused by every connection, or by none. -/
theorem refuseBadName_cases (name : Option String) :
    (∃ fault, ∀ c : Connection σ, refuseBadName name c = .error (.savepointName fault) c) ∨
      (∀ c : Connection σ, refuseBadName name c = .ok () c) ∧
        ∀ n, name = some n → Savepoint.checkName n = .ok () := by
  cases name with
  | none => exact .inr ⟨fun _ => rfl, nofun⟩
  | some n =>
    cases hn : Savepoint.checkName n with
    | error fault =>
      refine .inl ⟨fault, fun c => ?_⟩
      simp only [refuseBadName, Option.map_some, hn]
      rfl
    | ok _ =>
      refine .inr ⟨fun c => ?_, fun m hm => ?_⟩
      · simp only [refuseBadName, Option.map_some, hn]
        rfl
      · rw [← Option.some.inj hm, hn]

/-- Switching the flag on has nothing to end if no transaction is open. -/
theorem setAutoCommit_on [Database σ] (h : c.inTransaction = false) :
    Delegate.setAutoCommit true c = .ok () { c with autoCommit := true } := by
  obtain ⟨database, kind, on, inTransaction, savepoints⟩ := c
  obtain rfl : inTransaction = false := h
  rfl

/-- Without a transaction there is nothing to end. -/
theorem endTransaction_of_ended [Database σ] (h : c.inTransaction = false) (r : Request) :
    endTransaction r c = .ok () c := by
  obtain ⟨database, kind, on, inTransaction, savepoints⟩ := c
  obtain rfl : inTransaction = false := h
  rfl

variable [Database σ] [Dependable σ κ μ τ] {S : κ}

omit [Dependable σ κ μ τ] in
/-- A savepoint behind its `BEGIN`: it is numbered, and then sent. -/
theorem setSavepoint_tail (name : Option String) (c : Connection σ) :
    (do modify fun c => { c with savepoints := c.savepoints + 1 }
        let s : Savepoint := ⟨(← get).savepoints, name⟩
        discard <| send (.savepoint s.sqlName)
        return s : Action (Connection σ) Savepoint) c =
      (do discard <| send (.savepoint (Savepoint.sqlName ⟨c.savepoints + 1, name⟩))
          return ⟨c.savepoints + 1, name⟩ : Action (Connection σ) Savepoint)
        { c with savepoints := c.savepoints + 1 } := rfl

/-- Two connections that have worked alike since the content was `S`. The second one begins a
transaction for every statement; the first one is behind, as long as nothing has been written. -/
structure Twins (S : κ) (c d : Connection σ) : Prop where
  smart : c.Undoable S
  plain : d.Undoable S
  sameContent : content c.database = content d.database
  sameMemory : memory c.database = memory d.database
  sameCount : c.savepoints = d.savepoints
  off : d.autoCommit = false
  behind : c.inTransaction = true → d.inTransaction = true
  sameMarks : d.inTransaction = true →
    marks d.database = if c.inTransaction then marks c.database else unmarked σ

namespace Twins

/-- The second connection has a transaction open behind the `BEGIN` that it may send. -/
theorem ends_plain_ensureTransaction (h : Twins S c d) :
    Ends ensureTransaction d (fun _ d' => Twins S c d' ∧ d'.inTransaction = true)
      fun _ _ => False := by
  refine h.plain.ends_ensureTransaction_ok.mono (fun _ d' h' => ?_) fun _ _ h' => h'
  obtain ⟨hundoable, hstep⟩ := h'
  split at hstep
  · rename_i hneed
    -- with no transaction on the second connection there is none on the first one
    have hnot : c.inTransaction = false := by
      cases hin : c.inTransaction with
      | false => rfl
      | true => exact absurd (h.behind hin) (by simp [hneed.2])
    refine ⟨⟨h.smart, hundoable, ?_, ?_, ?_, ?_, fun _ => hstep.inTransaction, fun _ => ?_⟩,
      hstep.inTransaction⟩
    · rw [hstep.content]; exact h.sameContent
    · rw [hstep.memory]; exact h.sameMemory
    · rw [hstep.savepoints]; exact h.sameCount
    · rw [hstep.autoCommit]; exact h.off
    · rw [hstep.marks, hnot]; rfl
  · rename_i hneed
    subst hstep
    refine ⟨h, ?_⟩
    simpa [h.off] using hneed

/-- The first connection begins one too if its flag is off. -/
theorem ends_smart_ensureTransaction (h : Twins S c d) (hin : d.inTransaction = true) :
    Ends ensureTransaction c
      (fun _ c' => Twins S c' d ∧
        (c.autoCommit = false ∨ c.inTransaction = true → c'.inTransaction = true))
      fun _ _ => False := by
  refine h.smart.ends_ensureTransaction_ok.mono (fun _ c' h' => ?_) fun _ _ h' => h'
  obtain ⟨hundoable, hstep⟩ := h'
  split at hstep
  · rename_i hneed
    refine ⟨⟨hundoable, h.plain, ?_, ?_, ?_, h.off, fun _ => hin, fun _ => ?_⟩,
      fun _ => hstep.inTransaction⟩
    · rw [hstep.content]; exact h.sameContent
    · rw [hstep.memory]; exact h.sameMemory
    · rw [hstep.savepoints]; exact h.sameCount
    · rw [h.sameMarks hin, hneed.2, hstep.inTransaction, hstep.marks]; rfl
  · rename_i hneed
    subst hstep
    refine ⟨h, fun hor => ?_⟩
    rcases hor with hoff | hopen
    · simpa [hoff] using hneed
    · exact hopen

/-- A text in the transaction of the second connection. The first one has to have it open as well, or
the text must not change the content. -/
theorem agree_text (h : Twins S c d) (hin : d.inTransaction = true)
    {act : EStateM StatementError σ α} (hact : Settled act)
    (hsafe : c.inTransaction = true ∨ ∀ s, content (stateOf (act s)) = content s) :
    Agree (fun c' d' => Twins S c' d' ∧ c'.inTransaction = c.inTransaction)
      (onDatabase act c) (onDatabase act d) := by
  obtain ⟨hanswer, hcontent, hmemory⟩ := hact.alike _ _ h.sameContent h.sameMemory
  refine agree_onDatabase hanswer ⟨⟨?_, ?_, hcontent, hmemory, h.sameCount, h.off, h.behind, ?_⟩, rfl⟩
  · exact h.smart.text (hact.keepsPhase _) (hsafe.imp id fun hsame => hsame _)
  · exact h.plain.text (hact.keepsPhase _) (.inl hin)
  · intro _
    dsimp only
    rw [hact.keepsMarks, hact.keepsMarks]
    exact h.sameMarks hin

/-- A request about a savepoint in the transactions of both. -/
theorem agree_mark (h : Twins S c d) (hin : c.inTransaction = true) {r : Request} (hr : r.Proper)
    (hm : r.isMark = true) :
    Agree (fun c' d' => Twins S c' d' ∧ c'.inTransaction = c.inTransaction) (send r c) (send r d) := by
  have hopen : d.inTransaction = true := h.behind hin
  have hphase : phase c.database = .begun S := h.smart.phase_of_open hin
  have hphase' : phase d.database = .begun S := h.plain.phase_of_open hopen
  have hmarks : marks c.database = marks d.database := by rw [h.sameMarks hopen, hin]; rfl
  obtain ⟨hanswer, hcontent, hmarks', hmemory⟩ :=
    Dependable.mark_alike hr hm hphase hphase' h.sameContent hmarks h.sameMemory
  refine agree_onDatabase hanswer ⟨⟨?_, ?_, hcontent, hmemory, h.sameCount, h.off, h.behind, ?_⟩, rfl⟩
  · exact h.smart.mark hin hr hm
  · exact h.plain.mark hopen hr hm
  · intro _
    dsimp only
    rw [hin]
    exact hmarks'.symm

/-- Two connections behind the end of a transaction. -/
theorem of_ended (hc : c.Ended S) (hd : d.Ended S)
    (hmemory : memory c.database = memory d.database) (hcount : c.savepoints = d.savepoints)
    (hoff : d.autoCommit = false) : Twins S c d where
  smart := .idle hc.notIn hc.phase hc.content
  plain := .idle hd.notIn hd.phase hd.content
  sameContent := hc.content.trans hd.content.symm
  sameMemory := hmemory
  sameCount := hcount
  off := hoff
  behind hin := absurd hin (by simp [hc.notIn])
  sameMarks hin := absurd hin (by simp [hd.notIn])

/-- Both end their transaction, as far as they have one, with the same content. -/
theorem endTransaction (h : Twins S c d) {r : Request} (after : κ)
    (hr : ∀ s : σ, phase s = .begun S → content s = content c.database →
      ∃ n s', Database.execute r s = .ok n s' ∧ content s' = after ∧ phase s' = .idle ∧
        memory s' = memory s)
    (hnone : content c.database = S → after = S) :
    ∃ c' d', Connection.endTransaction r c = .ok () c' ∧ Connection.endTransaction r d = .ok () d' ∧
      Twins after c' d' ∧ c'.Ended after ∧ c'.autoCommit = c.autoCommit := by
  have hsmart := h.smart.ends_endTransaction_ok (fun hphase => hr _ hphase rfl) fun hended => by
    rw [hnone hended.content]
    exact hended
  have hplain := h.plain.ends_endTransaction_ok
    (fun hphase => hr _ hphase h.sameContent.symm) fun hended => by
      rw [hnone (h.sameContent.trans hended.content)]
      exact hended
  obtain ⟨⟨⟩, c', hc', hended, hmemory, hflag, hcount⟩ := hsmart.exists_ok
  obtain ⟨⟨⟩, d', hd', hended', hmemory', hflag', hcount'⟩ := hplain.exists_ok
  refine ⟨c', d', hc', hd', of_ended hended hended' ?_ ?_ (hflag'.trans h.off), hended, hflag⟩
  · rw [hmemory, hmemory']
    exact h.sameMemory
  · rw [hcount, hcount']
    exact h.sameCount

/-- The next number for a savepoint. -/
theorem count (h : Twins S c d) :
    Twins S { c with savepoints := c.savepoints + 1 } { d with savepoints := d.savepoints + 1 } where
  smart := by
    cases h.smart with
    | idle hnot hphase hcontent => exact .idle hnot hphase hcontent
    | begun hin hoff hphase => exact .begun hin hoff hphase
  plain := by
    cases h.plain with
    | idle hnot hphase hcontent => exact .idle hnot hphase hcontent
    | begun hin hoff hphase => exact .begun hin hoff hphase
  sameContent := h.sameContent
  sameMemory := h.sameMemory
  sameCount := by rw [h.sameCount]
  off := h.off
  behind := h.behind
  sameMarks := h.sameMarks

/-- A savepoint on both, where the first connection has been taken out of auto-commit for it. -/
theorem setSavepoint (h : Twins S c d) (hoff : c.autoCommit = false) (name : Option String) :
    ∃ c' d', Twins S c' d' ∧
      ((∃ s, Delegate.setSavepoint name c = .ok s c' ∧ Delegate.setSavepoint name d = .ok s d' ∧
          c'.inTransaction = true ∧ Savepoint.checkName s.sqlName = .ok ()) ∨
        ∃ e, Delegate.setSavepoint name c = .error e c' ∧ Delegate.setSavepoint name d = .error e d' ∧
          (c.inTransaction = true → c'.inTransaction = true)) := by
  simp only [Delegate.setSavepoint]
  rw [refuse_bind, refuse_bind, if_neg (by simp [hoff]), if_neg (by simp [h.off])]
  rcases refuseBadName_cases (σ := σ) name with ⟨fault, hbad⟩ | ⟨hgood, hname⟩
  · -- a bad name is refused before anything is sent
    exact ⟨c, d, h, .inr ⟨_, bind_of_error (hbad c), bind_of_error (hbad d), id⟩⟩
  · obtain ⟨⟨⟩, d₁, hd₁, h₁, hopen⟩ := h.ends_plain_ensureTransaction.exists_ok
    obtain ⟨⟨⟩, c₁, hc₁, h₂, hopen'⟩ := (h₁.ends_smart_ensureTransaction hopen).exists_ok
    have hin : c₁.inTransaction = true := hopen' (.inl hoff)
    have hproper : (Request.savepoint (Savepoint.sqlName ⟨c₁.savepoints + 1, name⟩)).Proper :=
      checkName_sqlName hname _
    have hmade := agree_discard (h₂.count.agree_mark hin hproper rfl)
    rw [bind_of_ok (hgood c), bind_of_ok hc₁, setSavepoint_tail, bind_of_ok (hgood d), bind_of_ok hd₁,
      setSavepoint_tail, ← h₂.sameCount]
    rw [← h₂.sameCount] at hmade
    rcases hmade.outcome with ⟨u, c₂, d₂, hc₂, hd₂, h₃, hin'⟩ | ⟨e, c₂, d₂, hc₂, hd₂, h₃, hin'⟩
    · exact ⟨c₂, d₂, h₃, .inl ⟨_, bind_of_ok hc₂, bind_of_ok hd₂, hin'.trans hin,
        checkName_sqlName hname _⟩⟩
    · exact ⟨c₂, d₂, h₃, .inr ⟨e, bind_of_error hc₂, bind_of_error hd₂, fun _ => hin'.trans hin⟩⟩

end Twins

end Connection

end DeferredTx.Session
