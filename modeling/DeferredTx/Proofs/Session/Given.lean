import DeferredTx.Proofs.Session.Journal
import DeferredTx.Proofs.Session.Rollback

/-!
# The savepoints that a connection has given

A connection numbers its savepoints by a counter. The counter goes up with every attempt to make one,
whether a name has been chosen and whether the attempt succeeds.

* `Given`, `Collected`: a savepoint that has been given, and a delegate with those that it has given.
* `collected_sim`: collecting them changes nothing.
* `Collected.invariant_of`: what holds all through the life of a delegate and its savepoints.
* `attempts`, `Numbered`: the number of a savepoint is the number of attempts so far.
* `Numbered.nodup_ids`: **numbers are given once**, up to 2 ^ 32 attempts.
* `refused_attempts_count`: behind those they begin anew, however few have succeeded.
-/

namespace DeferredTx.Session

variable {δ σ α : Type}

/-- A savepoint that a delegate has given, and the delegate right behind. -/
structure Given (δ : Type) where
  savepoint : Savepoint
  behind : δ

/-- A delegate with the savepoints that it has given, the earliest first. -/
structure Collected (δ : Type) where
  delegate : δ
  given : List (Given δ) := []

namespace Collected

/-- The savepoints alone. -/
def savepoints (w : Collected δ) : List Savepoint :=
  w.given.map Given.savepoint

/-- The collected delegate `w` is the delegate `d` with its savepoints. -/
def Holds (w : Collected δ) (d : δ) : Prop :=
  w.delegate = d

/-- Does on the delegate what gives no savepoint. -/
def pass (act : Action δ α) : Action (Collected δ) α := fun w =>
  match act w.delegate with
  | .ok a d => .ok a { w with delegate := d }
  | .error e d => .error e { w with delegate := d }

/-- Makes a savepoint and collects it. -/
def collect (act : Action δ Savepoint) : Action (Collected δ) Savepoint := fun w =>
  match act w.delegate with
  | .ok s d => .ok s ⟨d, w.given ++ [⟨s, d⟩]⟩
  | .error e d => .error e { w with delegate := d }

theorem ends_pass (act : Action δ α) (w : Collected δ) {Q : α → Collected δ → Prop}
    {R : DbError → Collected δ → Prop} :
    Ends (pass act) w Q R ↔ Ends act w.delegate (fun a d => Q a { w with delegate := d })
      fun e d => R e { w with delegate := d } := by
  simp only [Ends, pass]
  cases act w.delegate <;> rfl

theorem ends_collect (act : Action δ Savepoint) (w : Collected δ)
    {Q : Savepoint → Collected δ → Prop} {R : DbError → Collected δ → Prop} :
    Ends (collect act) w Q R ↔ Ends act w.delegate (fun s d => Q s ⟨d, w.given ++ [⟨s, d⟩]⟩)
      fun e d => R e { w with delegate := d } := by
  simp only [Ends, collect]
  cases act w.delegate <;> rfl

theorem simulates_pass (act : Action δ α) : Simulates Holds (pass act) act := by
  rintro w _ rfl
  unfold pass
  cases act w.delegate with
  | ok a d => exact .ok a (R := Holds) rfl
  | error e d => exact .error e (R := Holds) rfl

theorem simulates_collect (act : Action δ Savepoint) : Simulates Holds (collect act) act := by
  rintro w _ rfl
  unfold collect
  cases act w.delegate with
  | ok s d => exact .ok s (R := Holds) rfl
  | error e d => exact .error e (R := Holds) rfl

variable [Delegate δ]

instance : Delegate (Collected δ) where
  autoCommit := pass Delegate.autoCommit
  setAutoCommit on := pass (Delegate.setAutoCommit on)
  commit := pass Delegate.commit
  rollback := pass Delegate.rollback
  setSavepoint name := collect (Delegate.setSavepoint name)
  rollbackTo s := pass (Delegate.rollbackTo s)
  release s := pass (Delegate.release s)
  execute sql := pass (Delegate.execute sql)
  query sql := pass (Delegate.query sql)
  close := pass Delegate.close

/-- **Collecting savepoints changes nothing**: every method answers as it does without. -/
theorem collected_sim : DelegateSim (Holds (δ := δ)) where
  autoCommit := simulates_pass _
  setAutoCommit _ := simulates_pass _
  commit := simulates_pass _
  rollback := simulates_pass _
  setSavepoint _ := simulates_collect _
  rollbackTo _ := simulates_pass _
  release _ := simulates_pass _
  execute _ := simulates_pass _
  query _ := simulates_pass _

/-- A call that makes no savepoint gives none. -/
theorem ends_perform {k : Call} (hk : ∀ name, k ≠ .setSavepoint name) (w : Collected δ)
    {Q : Reply → Collected δ → Prop} {R : DbError → Collected δ → Prop} :
    Ends (Delegate.perform k) w Q R ↔ Ends (Delegate.perform k) w.delegate
      (fun r d => Q r { w with delegate := d }) fun e d => R e { w with delegate := d } := by
  cases k with
  | setSavepoint name => exact absurd rfl (hk name)
  | setAutoCommit | commit | rollback | rollbackTo | release | execute | query =>
    simp only [Delegate.perform, ends_bind, ends_pure]
    exact ends_pass _ w

/-- **What holds all through the life of a delegate and its savepoints**: a call that makes none keeps
it, whatever has been given, and a new savepoint keeps it together with what is behind it. -/
theorem invariant_of {P : Collected δ → Prop}
    (hanswer : ∀ given, Kept (fun d => P ⟨d, given⟩) (Delegate.autoCommit (δ := δ)))
    (hcall : ∀ k, (∀ name, k ≠ .setSavepoint name) → ∀ given,
      Kept (fun d => P ⟨d, given⟩) (Delegate.perform (δ := δ) k))
    (hset : ∀ name w, P w → Ends (Delegate.setSavepoint name) w.delegate
      (fun s d => P ⟨d, w.given ++ [⟨s, d⟩]⟩) fun _ d => P { w with delegate := d }) :
    Invariant P := by
  refine .of_calls (fun w hw => ?_) fun k w hw => ?_
  · exact (ends_pass _ w).2 (hanswer w.given w.delegate hw)
  · by_cases hk : ∃ name, k = .setSavepoint name
    · obtain ⟨name, rfl⟩ := hk
      simp only [Delegate.perform, ends_bind, ends_pure]
      exact (ends_collect _ w).2 (hset name w hw)
    · exact (ends_perform (not_exists.1 hk) w).2 (hcall k (not_exists.1 hk) w.given w.delegate hw)

end Collected

/-- Whether a request makes a savepoint. -/
def Request.isNew : Request → Bool
  | .savepoint _ => true
  | _ => false

/-- Only a call for a savepoint asks for one. -/
theorem Call.isNew_of_sends {k : Call} (hk : ∀ name, k ≠ .setSavepoint name) {r : Request}
    (hr : k.Sends r) : r.isNew = false := by
  cases k with
  | setSavepoint name => exact absurd rfl (hk name)
  | setAutoCommit | commit | rollback | rollbackTo | release =>
    obtain rfl := hr
    rfl
  | execute | query => obtain rfl | rfl := hr <;> rfl

namespace Journaled

/-- How often a savepoint has been asked for, with success or without. -/
def attempts (j : Journaled σ) : Nat :=
  j.journal.countP fun x => x.request.isNew

theorem attempts_snoc (c : Connection σ) (journal : List Sending) (x : Sending) :
    attempts ⟨c, journal ++ [x]⟩ = attempts ⟨c, journal⟩ + if x.request.isNew then 1 else 0 := by
  unfold attempts
  rw [List.countP_append, List.countP_singleton]

/-- The number of attempts and the number of the last savepoint. -/
def tally (j : Journaled σ) : Nat × UInt32 :=
  (j.attempts, j.connection.savepoints)

theorem kept_tally_note {r : Request} (hr : r.isNew = false) (act : EStateM StatementError σ α)
    (v : Nat × UInt32) : Kept (fun j => tally j = v) (note r act) := by
  intro j h
  have hattempts : ∀ c on inTransaction done,
      attempts (⟨c, j.journal ++ [⟨r, on, inTransaction, done⟩]⟩ : Journaled σ) = attempts j := by
    intro c on inTransaction done
    rw [attempts_snoc, hr]
    rfl
  rw [ends_note, Connection.ends_onDatabase]
  unfold tally at h ⊢
  simp only [hattempts]
  split <;> exact h

variable [Database σ]

/-- Requests that make no savepoint leave the numbers alone. -/
theorem steady_tally (v : Nat × UInt32) :
    Steady (fun r => r.isNew = false) fun j : Journaled σ => tally j = v where
  quiet hf j h := by
    rw [ends_quietly, ends_modify]
    unfold tally at h ⊢
    rw [(hf _).2]
    exact h
  execute hr := kept_tally_note hr _ v
  query hr := kept_tally_note hr _ v

/-- A new savepoint is numbered next and has a name that may be put into SQL text; an attempt that
fails takes a number as well, if it gets as far as the database. -/
theorem ends_setSavepoint_tally (name : Option String) (j : Journaled σ) :
    Ends (Delegate.setSavepoint name) j
      (fun s j' => s = j.next name ∧ Savepoint.checkName s.sqlName = .ok () ∧
        tally j' = (j.attempts + 1, j.connection.savepoints + 1))
      fun _ j' => tally j' = tally j ∨ tally j' = (j.attempts + 1, j.connection.savepoints + 1) := by
  refine (steady_tally (tally j)).ends_setSavepoint rfl name rfl (fun _ _ h => Or.inl h) ?_
  intro j₁ h₁ hname
  obtain ⟨hattempts, hcount⟩ := Prod.mk.inj h₁
  have hnext : j₁.next name = j.next name := by rw [next, hcount, next]
  have hnew : ∀ s on inTransaction done, tally (⟨{ j₁.counted.connection with database := s },
      j₁.counted.journal ++ [⟨.savepoint (j₁.next name).sqlName, on, inTransaction, done⟩]⟩ :
        Journaled σ) = (j.attempts + 1, j.connection.savepoints + 1) := by
    intro s on inTransaction done
    rw [← hattempts, ← hcount]
    simp only [tally, attempts_snoc, Request.isNew, if_true]
    rfl
  rw [send, ends_note, Connection.ends_onDatabase]
  split
  · exact ⟨hnext, Connection.checkName_sqlName hname _, hnew _ _ _ _⟩
  · exact Or.inr (hnew _ _ _ _)

end Journaled

open Journaled (attempts tally)

/-- A connection as it is opened, that has given nothing. -/
structure Collected.IsFresh (w : Collected (Journaled σ)) : Prop where
  delegate : w.delegate.IsFresh
  given : w.given = []

/-- **The numbers of savepoints.** Each has the number of attempts so far, and the attempts behind one
savepoint are more than those behind an earlier one. The names may be put into SQL text. -/
structure Numbered (w : Collected (Journaled σ)) : Prop where
  count : w.delegate.connection.savepoints = UInt32.ofNat w.delegate.attempts
  ids : ∀ g ∈ w.given, g.savepoint.id = UInt32.ofNat g.behind.attempts
  ordered : w.given.Pairwise fun g g' => g.behind.attempts < g'.behind.attempts
  within : ∀ g ∈ w.given, g.behind.attempts ≤ w.delegate.attempts
  checked : ∀ g ∈ w.given, Savepoint.checkName g.savepoint.sqlName = .ok ()

namespace Numbered

variable {w : Collected (Journaled σ)} {j : Journaled σ}

/-- Nothing has been counted. -/
theorem same (h : Numbered w) (hj : tally j = tally w.delegate) : Numbered ⟨j, w.given⟩ := by
  obtain ⟨hattempts, hcount⟩ := Prod.mk.inj hj
  refine ⟨?_, h.ids, h.ordered, fun g hg => ?_, h.checked⟩
  · show j.connection.savepoints = UInt32.ofNat j.attempts
    rw [hattempts, hcount]
    exact h.count
  · show g.behind.attempts ≤ j.attempts
    rw [hattempts]
    exact h.within g hg

/-- One attempt has been counted. -/
theorem succ (h : Numbered w)
    (hj : tally j = (w.delegate.attempts + 1, w.delegate.connection.savepoints + 1)) :
    Numbered ⟨j, w.given⟩ := by
  obtain ⟨hattempts, hcount⟩ := Prod.mk.inj hj
  refine ⟨?_, h.ids, h.ordered, fun g hg => ?_, h.checked⟩
  · show j.connection.savepoints = UInt32.ofNat j.attempts
    rw [hattempts, hcount, h.count, UInt32.ofNat_add]
    rfl
  · show g.behind.attempts ≤ j.attempts
    rw [hattempts]
    exact Nat.le_succ_of_le (h.within g hg)

/-- A savepoint has been given for it. -/
theorem snoc (h : Numbered w) {name : Option String}
    (hname : Savepoint.checkName (w.delegate.next name).sqlName = .ok ())
    (hj : tally j = (w.delegate.attempts + 1, w.delegate.connection.savepoints + 1)) :
    Numbered ⟨j, w.given ++ [⟨w.delegate.next name, j⟩]⟩ := by
  have hsucc := h.succ hj
  obtain ⟨hattempts, hcount⟩ := Prod.mk.inj hj
  refine ⟨hsucc.count, ?_, ?_, ?_, ?_⟩
  · refine List.forall_mem_append.2 ⟨h.ids, List.forall_mem_singleton.2 ?_⟩
    show w.delegate.connection.savepoints + 1 = UInt32.ofNat j.attempts
    rw [← hcount]
    exact hsucc.count
  · refine List.pairwise_append.2 ⟨h.ordered, List.pairwise_singleton _ _, fun g hg g' hg' => ?_⟩
    obtain rfl := List.mem_singleton.1 hg'
    show g.behind.attempts < j.attempts
    rw [hattempts]
    exact Nat.lt_succ_of_le (h.within g hg)
  · exact List.forall_mem_append.2 ⟨hsucc.within, List.forall_mem_singleton.2 le_rfl⟩
  · exact List.forall_mem_append.2 ⟨h.checked, List.forall_mem_singleton.2 hname⟩

variable [Database σ]

theorem invariant : Invariant (Numbered (σ := σ)) := by
  refine Collected.invariant_of (fun _ _ h => h) (fun k hk given j h => ?_) fun name w h => ?_
  · refine ((Journaled.steady_tally (tally j)).perform hk ?_ j rfl).mono (fun _ _ h' => h.same h')
      fun _ _ h' => h.same h'
    exact fun r hr => Call.isNew_of_sends hk hr
  · refine (Journaled.ends_setSavepoint_tally name w.delegate).mono ?_ ?_
    · rintro s j ⟨rfl, hname, hj⟩
      exact h.snoc hname hj
    · rintro e j (hj | hj)
      · exact h.same hj
      · exact h.succ hj

omit [Database σ] in
theorem of_isFresh (h : w.IsFresh) : Numbered w := by
  obtain ⟨⟨hfresh, hjournal⟩, hgiven⟩ := h
  constructor
  · rw [hfresh.savepoints, attempts, hjournal]
    rfl
  · simp [hgiven]
  · simp [hgiven]
  · simp [hgiven]
  · simp [hgiven]

omit [Database σ] in
/-- **Numbers are given once**, as long as they do not begin anew. -/
theorem nodup_ids (h : Numbered w) (hfew : w.delegate.attempts < UInt32.size) :
    (w.savepoints.map Savepoint.id).Nodup := by
  rw [Collected.savepoints, List.map_map]
  refine List.pairwise_map.2 (h.ordered.imp_of_mem fun {g g'} hg hg' hlt heq => ?_)
  have hle := h.within g' hg'
  rw [Function.comp_apply, Function.comp_apply, h.ids g hg, h.ids g' hg'] at heq
  have hmod := congrArg UInt32.toNat heq
  rw [UInt32.toNat_ofNat', UInt32.toNat_ofNat'] at hmod
  have hsize : UInt32.size = 4294967296 := rfl
  omega

end Numbered

/-- A database that counts the savepoints that it is asked for, and carries one out of 2 ^ 32 out. -/
structure Reluctant where
  asked : Nat := 0

instance : Database Reluctant where
  execute r s :=
    if r.isNew then
      if s.asked % UInt32.size = 0 then .ok 0 ⟨s.asked + 1⟩ else .error (.refused "") ⟨s.asked + 1⟩
    else .ok 0 s
  query _ s := .ok [] s
  close := pure ()

namespace Reluctant

/-- The flag is off, and `n` savepoints have been asked for. -/
structure Asked (n : Nat) (j : Journaled Reluctant) : Prop where
  off : j.connection.autoCommit = false
  asked : j.connection.database.asked = n
  count : j.connection.savepoints = UInt32.ofNat n

variable {n : Nat} {j : Journaled Reluctant}

theorem Asked.ends_ensureTransaction (h : Asked n j) :
    Ends Journaled.ensureTransaction j (fun _ j' => Asked n j') fun _ _ => False := by
  simp only [Journaled.ensureTransaction, ends_bind, ends_get, ends_ite, ends_pure, ends_discard]
  split
  · exact ⟨h.off, h.asked, h.count⟩
  · exact h

theorem execute_savepoint (name : String) (s : Reluctant) :
    Database.execute (.savepoint name) s =
      if s.asked % UInt32.size = 0 then .ok 0 ⟨s.asked + 1⟩
      else .error (.refused "") ⟨s.asked + 1⟩ := rfl

theorem Asked.ends_setSavepoint (h : Asked n j) :
    Ends (Delegate.setSavepoint none) j
      (fun s j' => n % UInt32.size = 0 ∧ s = ⟨UInt32.ofNat (n + 1), none⟩ ∧ Asked (n + 1) j')
      fun _ j' => n % UInt32.size ≠ 0 ∧ Asked (n + 1) j' := by
  simp only [Delegate.setSavepoint, ends_bind, Journaled.ends_quietly,
    Connection.ends_refuseInAutoCommit, h.off, Bool.false_eq_true, if_false, Connection.refuseBadName,
    Option.map_none, ends_pure]
  refine h.ends_ensureTransaction.mono (fun _ j₁ h₁ => ?_) fun _ _ => False.elim
  have hnext : j₁.connection.savepoints + 1 = UInt32.ofNat (n + 1) := by
    rw [h₁.count, UInt32.ofNat_add]
    rfl
  have hasked : j₁.connection.database.asked = n := h₁.asked
  simp only [ends_modify, ends_get, ends_discard, Journaled.send, hnext]
  rw [Journaled.ends_note, Connection.ends_onDatabase, execute_savepoint, hasked]
  by_cases hcarried : n % UInt32.size = 0
  · rw [if_pos hcarried]
    exact ⟨hcarried, trivial, h₁.off, rfl, rfl⟩
  · rw [if_neg hcarried]
    exact ⟨hcarried, h₁.off, rfl, rfl⟩

/-- The numbers of the attempts that are carried out. -/
def carried (n : Nat) : List Nat :=
  (List.range n).filter (· % UInt32.size = 0)

theorem carried_succ (n : Nat) :
    carried (n + 1) = carried n ++ if n % UInt32.size = 0 then [n] else [] := by
  have hlast : ∀ p : Nat → Bool, [n].filter p = if p n = true then [n] else [] := by
    intro p
    cases h : p n <;> simp [h]
  unfold carried
  rw [List.range_succ, List.filter_append, hlast]
  exact congrArg (_ ++ ·) (if_congr decide_eq_true_iff rfl rfl)

theorem carried_first {n : Nat} (hpos : 0 < n) (hle : n ≤ UInt32.size) : carried n = [0] := by
  induction n with
  | zero => omega
  | succ n ih =>
    rw [carried_succ]
    by_cases h : n = 0
    · subst h
      rfl
    · have hrest : n % UInt32.size ≠ 0 := by
        rw [Nat.mod_eq_of_lt hle]
        exact h
      rw [ih (by omega) (by omega), if_neg hrest, List.append_nil]

/-- A connection that has been asked for `n` savepoints. -/
def after : Nat → Collected (Journaled Reluctant)
  | 0 => stateOf (Delegate.perform (.setAutoCommit false) ⟨⟨{ database := {}, kind := .sqlite }, []⟩, []⟩)
  | n + 1 => stateOf (Delegate.perform (.setSavepoint none) (after n))

theorem asked_after (n : Nat) : Asked n (after n).delegate ∧
    (after n).savepoints = (carried n).map fun k => ⟨UInt32.ofNat (k + 1), none⟩ := by
  induction n with
  | zero => exact ⟨⟨rfl, rfl, rfl⟩, rfl⟩
  | succ n ih =>
    obtain ⟨hasked, hgiven⟩ := ih
    have hends : Ends (Delegate.perform (.setSavepoint none)) (after n)
        (fun _ w => Asked (n + 1) w.delegate ∧
          w.savepoints = (carried (n + 1)).map fun k => ⟨UInt32.ofNat (k + 1), none⟩)
        fun _ w => Asked (n + 1) w.delegate ∧
          w.savepoints = (carried (n + 1)).map fun k => ⟨UInt32.ofNat (k + 1), none⟩ := by
      simp only [Delegate.perform, ends_bind, ends_pure]
      refine (Collected.ends_collect _ _).2 (hasked.ends_setSavepoint.mono ?_ ?_)
      · rintro s j ⟨hcarried, rfl, hj⟩
        refine ⟨hj, ?_⟩
        rw [carried_succ, if_pos hcarried, List.map_append, ← hgiven]
        simp [Collected.savepoints]
      · rintro e j ⟨hcarried, hj⟩
        refine ⟨hj, ?_⟩
        rw [carried_succ, if_neg hcarried, List.append_nil, ← hgiven]
        rfl
    exact hends.state

theorem arises_after (n : Nat) : Arises Collected.IsFresh (after n) := by
  induction n with
  | zero => exact .call _ (.fresh ⟨⟨⟨rfl, rfl, rfl⟩, rfl⟩, rfl⟩)
  | succ n ih => exact ih.call _

end Reluctant

/-- **The numbers begin anew behind 2 ^ 32 attempts**, even if all but two of them have been refused:
two values out of two, none of them with a chosen name, are the same. -/
theorem refused_attempts_count :
    ∃ w : Collected (Journaled Reluctant), Arises Collected.IsFresh w ∧
      w.savepoints = [⟨1, none⟩, ⟨1, none⟩] := by
  obtain ⟨-, hgiven⟩ := Reluctant.asked_after (UInt32.size + 1)
  refine ⟨Reluctant.after (UInt32.size + 1), Reluctant.arises_after _, ?_⟩
  rw [hgiven, Reluctant.carried_succ, if_pos (Nat.mod_self _),
    Reluctant.carried_first (by decide) le_rfl]
  rfl

end DeferredTx.Session
