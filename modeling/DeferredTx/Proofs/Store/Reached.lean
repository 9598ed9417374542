import DeferredTx.Proofs.SavepointName
import DeferredTx.Proofs.Session.Given
import DeferredTx.Proofs.Store.Determined

/-!
# The savepoint that a value reaches

A store finds a savepoint by its name, up to the case of letters, and takes the newest one. Which one
that is depends on all that has been made in the transaction.

* `Store.Cuts`: what a rollback to a savepoint and a release of one make of the savepoints.
* `Regular`: requests that make a savepoint only where the connection means to.
* `Traced`: every savepoint of the store has been made with a value that the connection has given.
* `given_names_distinct`: **the names of the values are different, and each reaches its own savepoint**,
  as long as no chosen name looks like one made from a number.
* `generated_name_taken`: a chosen name that does.
-/

namespace DeferredTx.Store

open Session Sql
open Text (sameName)

section Marks

variable {s s' : Store} {m : Mark} {name : String}

/-- The savepoint `m` is the newest one of its name in `marks`, and `older` are those behind it. -/
def Cuts (marks : List Mark) (name : String) (m : Mark) (older : List Mark) : Prop :=
  ∃ newer, marks = newer ++ m :: older ∧ sameName m.name name = true ∧
    ∀ n ∈ newer, sameName n.name name = false

theorem cuts_of_since {t : Transaction} {older : List Mark} (h : t.since name = m :: older) :
    Cuts t.marks name m older := by
  unfold Transaction.since at h
  refine ⟨t.marks.takeWhile fun m => !sameName m.name name, ?_, ?_, fun n hn => ?_⟩
  · rw [← h, List.takeWhile_append_dropWhile]
  · have hfirst := List.head?_dropWhile_not (fun m => !sameName m.name name) t.marks
    rw [h] at hfirst
    simpa using hfirst
  · simpa using List.all_eq_true.1 List.all_takeWhile n hn

/-- A rollback to a savepoint restores its tables, and forgets the newer ones. -/
theorem rollbackTo_cuts (h : s.rollbackTo name = .ok s') :
    ∃ m older, Cuts (marksOf s) name m older ∧ marksOf s' = m :: older ∧ s'.tables = m.tables := by
  unfold rollbackTo at h
  split at h
  · cases h
  · rename_i t ht
    split at h
    · cases h
    · rename_i m older hsince
      cases h
      refine ⟨m, older, ?_, rfl, rfl⟩
      rw [marksOf, ht]
      exact cuts_of_since hsince

/-- A release forgets the savepoint as well, and leaves the tables alone. -/
theorem release_cuts (h : s.release name = .ok s') :
    ∃ m older, Cuts (marksOf s) name m older ∧ marksOf s' = older ∧ s'.tables = s.tables := by
  unfold release at h
  split at h
  · cases h
  · rename_i t ht
    split at h
    · cases h
    · rename_i m older hsince
      cases h
      refine ⟨m, older, ?_, ?_, rfl⟩
      · rw [marksOf, ht]
        exact cuts_of_since hsince
      · -- the transaction ends with its last savepoint at the earliest
        cases older with
        | nil => cases t.bySavepoint <;> rfl
        | cons => simp [marksOf]

/-- Whether a statement makes no savepoint. -/
def makesNone : Sql.Statement → Bool
  | .savepoint _ => false
  | _ => true

/-- Only a statement that makes a savepoint adds one. -/
theorem marks_perform {statement : Sql.Statement} (hc : makesNone statement = true)
    {result : Option Relation} (h : s.perform statement = .ok (result, s')) :
    ∀ m ∈ marksOf s', m ∈ marksOf s := by
  have hsame : s'.transaction = s.transaction → ∀ m ∈ marksOf s', m ∈ marksOf s := by
    intro heq m hm
    rw [marksOf, heq] at hm
    exact hm
  cases statement with
  | savepoint name => cases hc
  | begin kind =>
    obtain ⟨-, hp⟩ := none_of_bind h
    unfold Store.begin at hp
    split at hp <;> cases hp
    exact fun m hm => absurd hm List.not_mem_nil
  | commit =>
    obtain ⟨-, hp⟩ := none_of_bind h
    unfold Store.commit at hp
    split at hp <;> cases hp
    exact fun m hm => absurd hm List.not_mem_nil
  | rollback =>
    obtain ⟨-, hp⟩ := none_of_bind h
    unfold Store.rollback at hp
    split at hp <;> cases hp
    exact fun m hm => absurd hm List.not_mem_nil
  | rollbackTo name =>
    obtain ⟨-, hp⟩ := none_of_bind h
    obtain ⟨m, older, ⟨newer, heq, -⟩, hmarks, -⟩ := rollbackTo_cuts hp
    rw [heq, hmarks]
    exact fun n hn => List.mem_append_right newer hn
  | release name =>
    obtain ⟨-, hp⟩ := none_of_bind h
    obtain ⟨m, older, ⟨newer, heq, -⟩, hmarks, -⟩ := release_cuts hp
    rw [heq, hmarks]
    exact fun n hn => List.mem_append_right newer (List.mem_cons_of_mem m hn)
  | query | insert | update | delete | createTable | dropTable =>
    exact hsame (transaction_perform rfl h)

end Marks

/-- A text that makes no savepoint, or a request of the connection's own. -/
def Regular : Request → Prop
  | .statement sql => allPass makesNone sql = true
  | .savepoint name | .rollbackTo name | .release name => Savepoint.checkName name = .ok ()
  | .begin | .commit | .rollback => True

instance : DecidablePred Regular
  | .statement sql => inferInstanceAs (Decidable (allPass makesNone sql = true))
  | .savepoint name | .rollbackTo name | .release name =>
    inferInstanceAs (Decidable (Savepoint.checkName name = .ok ()))
  | .begin | .commit | .rollback => inferInstanceAs (Decidable True)

/-- A regular request adds a savepoint only if it asks for one. -/
theorem kept_marks {r : Request} (hr : Regular r) (hnew : r.isNew = false) (allowed : List Mark) :
    Kept (fun s => ∀ m ∈ marksOf s, m ∈ allowed) (execute r.text) ∧
      ∀ sql, r = .statement sql → Kept (fun s => ∀ m ∈ marksOf s, m ∈ allowed) (query sql) := by
  by_cases hsql : ∃ sql, r = .statement sql
  · obtain ⟨sql, rfl⟩ := hsql
    have hkept := kept_text (P := fun s => ∀ m ∈ marksOf s, m ∈ allowed) (fun _ _ h => h)
      (fun statement hc s result s' h hp m hm => h m (marks_perform hc hp m hm)) hr
    refine ⟨hkept.1, ?_⟩
    rintro _ ⟨⟩
    exact hkept.2
  · refine ⟨fun s hs => ?_, fun sql heq => absurd ⟨sql, heq⟩ hsql⟩
    have hproper : r.Proper := by
      cases r with
      | statement sql => exact absurd ⟨sql, rfl⟩ hsql
      | begin | commit | rollback | savepoint | rollbackTo | release => exact hr
    have hmakes : makesNone (requested r) = true := by
      cases r with
      | savepoint name => cases hnew
      | begin | commit | rollback | rollbackTo | release | statement => rfl
    refine (execute_request hproper s).mono (fun _ s' hp m hm => ?_) fun _ s' hsame m hm => ?_
    · exact hs m (marks_perform hmakes hp m hm)
    · refine hs m ?_
      rw [marksOf, hsame.2] at hm
      exact hm

/-- The savepoints of the store are among the `allowed` ones, if all requests so far were regular. -/
def Within (allowed : List Mark) (j : Journaled Store) : Prop :=
  (∀ x ∈ j.journal, Regular x.request) → ∀ m ∈ marksOf j.connection.database, m ∈ allowed

theorem kept_within_note {α : Type} {allowed : List Mark} {r : Request}
    {act : EStateM StatementError Store α}
    (hact : Regular r → Kept (fun s => ∀ m ∈ marksOf s, m ∈ allowed) act) :
    Kept (Within allowed) (Journaled.note r act) := by
  intro j h
  rw [Journaled.ends_note, Connection.ends_onDatabase]
  have hnext : ∀ on inTransaction done,
      (∀ x ∈ j.journal ++ [⟨r, on, inTransaction, done⟩], Regular x.request) →
        ∀ m ∈ marksOf (stateOf (act j.connection.database)), m ∈ allowed := by
    intro on inTransaction done hall
    obtain ⟨hbefore, hlast⟩ := List.forall_mem_append.1 hall
    exact (hact (hlast _ (List.mem_singleton_self _)) _ (h hbefore)).state
  unfold Within
  cases hr : act j.connection.database with
  | ok a s =>
    rw [hr] at hnext
    exact hnext _ _ _
  | error e s =>
    rw [hr] at hnext
    exact hnext _ _ _

theorem steady_within (allowed : List Mark) :
    Journaled.Steady (fun r => r.isNew = false) (Within allowed) where
  quiet hf j h := by
    rw [Journaled.ends_quietly, ends_modify]
    unfold Within
    rw [(hf _).1]
    exact h
  execute hr := kept_within_note fun hregular => (kept_marks hregular hr allowed).1
  query hr := kept_within_note fun hregular => (kept_marks hregular hr allowed).2 _ rfl

/-- The savepoint that has been made with a value, as the store has it. -/
def markOf (g : Given (Journaled Store)) : Mark :=
  ⟨g.savepoint.sqlName, g.behind.connection.database.tables⟩

/-- Every savepoint of the store has been made with a value that has been given, if all requests so
far were regular. -/
def Traced (w : Collected (Journaled Store)) : Prop :=
  Within (w.given.map markOf) w.delegate

theorem marksOf_mark (s : Store) (name : String) :
    marksOf (s.mark name) = ⟨name, s.tables⟩ :: marksOf s ∧ (s.mark name).tables = s.tables := by
  unfold mark marksOf
  cases s.transaction <;> exact ⟨rfl, rfl⟩

/-- A new savepoint is in the store with the tables as they are right behind it. -/
theorem ends_send_savepoint {allowed : List Mark} {s : Savepoint} {j : Journaled Store}
    (h : Within allowed j) (hname : Savepoint.checkName s.sqlName = .ok ()) :
    Ends (Journaled.send (.savepoint s.sqlName)) j
      (fun _ j' => Within (allowed ++ [markOf ⟨s, j'⟩]) j') fun _ j' => Within allowed j' := by
  have hbefore : ∀ {x : Sending}, (∀ y ∈ j.journal ++ [x], Regular y.request) →
      ∀ m ∈ marksOf j.connection.database, m ∈ allowed :=
    fun hall => h fun y hy => hall y (List.mem_append_left _ hy)
  have hdone := execute_request (r := .savepoint s.sqlName) hname j.connection.database
  rw [Journaled.send, Journaled.ends_note, Connection.ends_onDatabase]
  unfold Ends at hdone
  unfold Within
  simp only [Database.execute]
  cases hr : execute (Request.savepoint s.sqlName).text j.connection.database with
  | ok n t =>
    rw [hr] at hdone
    simp only [requested, perform, Except.ok.injEq, Prod.mk.injEq, true_and] at hdone
    subst hdone
    obtain ⟨hmarks, htables⟩ := marksOf_mark j.connection.database s.sqlName
    intro hall m hm
    rw [hmarks] at hm
    rcases List.mem_cons.1 hm with rfl | hold
    · refine List.mem_append_right _ (List.mem_singleton.2 ?_)
      rw [markOf, htables]
    · exact List.mem_append_left _ (hbefore hall m hold)
  | error e t =>
    rw [hr] at hdone
    intro hall m hm
    refine hbefore hall m ?_
    rw [marksOf, hdone.2] at hm
    exact hm

/-- **Every savepoint of the store can be traced back to a value**, all through the life of a
connection. -/
theorem Traced.invariant : Invariant Traced := by
  refine Collected.invariant_of (fun _ _ h => h) (fun k hk given => ?_) fun name w h => ?_
  · exact (steady_within (given.map markOf)).perform hk fun r hr => Call.isNew_of_sends hk hr
  · refine (steady_within (w.given.map markOf)).ends_setSavepoint rfl name h (fun _ _ h' => h') ?_
    intro j hj hname
    have hname' := Connection.checkName_sqlName hname (j.connection.savepoints + 1)
    have hsend := ends_send_savepoint (s := j.next name) (j := j.counted) hj hname'
    refine hsend.mono (fun _ j' h' => ?_) fun _ _ h' => h'
    unfold Traced
    rw [List.map_append]
    exact h'

section Reached

variable {s : Savepoint} {j j' : Journaled Store}

/-- A request about a savepoint that has been carried out has done what it stands for. -/
theorem ends_send_requested {r : Request} (hr : r.Proper) (j : Journaled Store) :
    Ends (discard (Journaled.send r)) j
      (fun _ j' => j.connection.database.perform (requested r) = .ok (none, j'.connection.database))
      fun _ _ => True := by
  have hdone := execute_request hr j.connection.database
  rw [ends_discard, Journaled.send, Journaled.ends_note, Connection.ends_onDatabase]
  unfold Ends at hdone
  simp only [Database.execute]
  cases he : execute r.text j.connection.database with
  | ok n t =>
    rw [he] at hdone
    exact hdone
  | error e t => trivial

/-- A rollback to a value restores the tables of the savepoint that its name reaches, and forgets the
newer ones. -/
theorem rollbackTo_reaches (hname : Savepoint.checkName s.sqlName = .ok ())
    (h : Delegate.rollbackTo s j = .ok () j') :
    ∃ m older, Cuts (marksOf j.connection.database) s.sqlName m older ∧
      marksOf j'.connection.database = m :: older ∧ j'.connection.database.tables = m.tables := by
  have hends : Ends (Delegate.rollbackTo s) j (fun _ j' =>
      j.connection.database.perform (requested (.rollbackTo s.sqlName)) =
        .ok (none, j'.connection.database)) fun _ _ => True := by
    simp only [Delegate.rollbackTo, ends_bind, Journaled.ends_quietly,
      Connection.ends_refuseInAutoCommit]
    split
    · trivial
    · exact ends_send_requested (r := .rollbackTo s.sqlName) hname j
  obtain ⟨-, hp⟩ := none_of_bind (hends.of_ok h)
  exact rollbackTo_cuts hp

/-- A release by a value forgets the savepoint that its name reaches, and the newer ones. -/
theorem release_reaches (hname : Savepoint.checkName s.sqlName = .ok ())
    (h : Delegate.release s j = .ok () j') :
    ∃ m older, Cuts (marksOf j.connection.database) s.sqlName m older ∧
      marksOf j'.connection.database = older ∧
      j'.connection.database.tables = j.connection.database.tables := by
  have hends := ends_send_requested (r := .release s.sqlName) hname j
  obtain ⟨-, hp⟩ := none_of_bind (hends.of_ok h)
  exact release_cuts hp

end Reached

theorem sameName_symm {a b : String} (h : sameName a b = true) : sameName b a = true := by
  have hfold := eq_of_beq (show (Text.fold a.toList == Text.fold b.toList) = true from h)
  exact beq_iff_eq.2 hfold.symm

/-- A connection as it is opened on a store with no transaction open, that has given nothing. -/
structure Opened (w : Collected (Journaled Store)) : Prop extends w.IsFresh where
  idle : w.delegate.connection.database.transaction = none

theorem Traced.of_opened {w : Collected (Journaled Store)} (h : Opened w) : Traced w := by
  intro _ m hm
  rw [marksOf, h.idle] at hm
  cases hm

/-- A name reaches the savepoint that has been made with its value, if the names are told apart as the
store tells them apart. -/
theorem Traced.eq_markOf {w : Collected (Journaled Store)} (h : Traced w)
    (hregular : ∀ x ∈ w.delegate.journal, Regular x.request)
    (hnames : (w.savepoints.map Savepoint.sqlName).Pairwise fun a b => ¬sameName a b = true)
    {g : Given (Journaled Store)} (hg : g ∈ w.given) {m : Mark} {older : List Mark}
    (hm : Cuts (marksOf w.delegate.connection.database) g.savepoint.sqlName m older) :
    m = markOf g := by
  obtain ⟨newer, hmarks, hsame, -⟩ := hm
  have hmem : m ∈ marksOf w.delegate.connection.database := by
    rw [hmarks]
    exact List.mem_append_right _ List.mem_cons_self
  obtain ⟨g', hg', rfl⟩ := List.mem_map.1 (h hregular m hmem)
  simp only [Collected.savepoints, List.map_map, List.pairwise_map, Function.comp_apply] at hnames
  by_contra hne
  have hdistinct : g' ≠ g := fun heq => hne (by rw [heq])
  have hsymm : Std.Symm fun a b : Given (Journaled Store) =>
      ¬sameName a.savepoint.sqlName b.savepoint.sqlName = true :=
    ⟨fun a b hab hba => hab (sameName_symm hba)⟩
  exact hnames.forall hg' hg hdistinct hsame

end DeferredTx.Store

namespace DeferredTx.Session

open Savepoint (WellChosen)
open Store (Cuts Regular Traced markOf marksOf)
open Text (sameName)

/-- **The values of savepoints.** Every life of a connection is the life of one that collects its
savepoints. If fewer than 2 ^ 32 savepoints have been asked for in it, with success or without, and the
names that callers have chosen differ from each other and from the names made from numbers, then the
names in SQL of all values differ. Over a store, which does not tell names apart by the case of
letters, let the chosen names differ up to case, and let the requests be regular: no text makes a
savepoint of its own, and the values handed in name identifiers. Then a rollback to a value restores
the tables as they were when that value was given, and a release forgets that very savepoint, and the
newer ones. -/
theorem given_names_distinct {σ : Type} [Database σ] :
    (∀ c : Connection σ, Arises Connection.IsFresh c →
      ∃ w : Collected (Journaled σ), Arises Collected.IsFresh w ∧ w.delegate.connection = c) ∧
    (∀ w : Collected (Journaled σ), Arises Collected.IsFresh w → w.delegate.attempts < UInt32.size →
      WellChosen (fun a b => a = b) w.savepoints → (w.savepoints.map Savepoint.sqlName).Nodup) ∧
    ∀ w : Collected (Journaled Store), Arises Store.Opened w → w.delegate.attempts < UInt32.size →
      WellChosen (fun a b => sameName a b = true) w.savepoints →
      (∀ x ∈ w.delegate.journal, Regular x.request) → ∀ g ∈ w.given,
        (∀ j, Delegate.rollbackTo g.savepoint w.delegate = .ok () j → ∃ older,
          Cuts (marksOf w.delegate.connection.database) g.savepoint.sqlName (markOf g) older ∧
            marksOf j.connection.database = markOf g :: older ∧
            j.connection.database.tables = g.behind.connection.database.tables) ∧
        ∀ j, Delegate.release g.savepoint w.delegate = .ok () j → ∃ older,
          Cuts (marksOf w.delegate.connection.database) g.savepoint.sqlName (markOf g) older ∧
            marksOf j.connection.database = older := by
  refine ⟨fun c hc => ?_, fun w hw hfew hchosen => ?_, fun w hw hfew hchosen hregular g hg => ?_⟩
  · have hjournal : ∃ j : Journaled σ, Arises Journaled.IsFresh j ∧ Journaled.Holds j c := by
      refine Arises.related Journaled.journaled_sim (fun d hd => ?_) hc
      exact ⟨⟨d, []⟩, ⟨hd, rfl⟩, rfl⟩
    obtain ⟨j, hj, rfl⟩ := hjournal
    have hcollected : ∃ w : Collected (Journaled σ), Arises Collected.IsFresh w ∧
        Collected.Holds w j := by
      refine Arises.related Collected.collected_sim (fun d hd => ?_) hj
      exact ⟨⟨d, []⟩, ⟨hd, rfl⟩, rfl⟩
    obtain ⟨w, hw, rfl⟩ := hcollected
    exact ⟨w, hw, rfl⟩
  · have hnumbered := Numbered.invariant.arises (fun _ => Numbered.of_isFresh) hw
    exact hchosen.pairwise (fun _ _ => Eq.symm)
      (fun id id' heq => Savepoint.eq_of_sameName_generated (by rw [heq]; exact beq_self_eq_true _))
      (hnumbered.nodup_ids hfew)
  · have hnumbered := Numbered.invariant.arises (fun _ h => Numbered.of_isFresh h.toIsFresh) hw
    have htraced := Traced.invariant.arises (fun _ => Traced.of_opened) hw
    have hnames := hchosen.pairwise (fun _ _ => Store.sameName_symm)
      (fun _ _ => Savepoint.eq_of_sameName_generated) (hnumbered.nodup_ids hfew)
    have hname := hnumbered.checked g hg
    refine ⟨fun j hj => ?_, fun j hj => ?_⟩
    · obtain ⟨m, older, hcuts, hmarks, htables⟩ := Store.rollbackTo_reaches hname hj
      obtain rfl := htraced.eq_markOf hregular hnames hg hcuts
      exact ⟨older, hcuts, hmarks, htables⟩
    · obtain ⟨m, older, hcuts, hmarks, -⟩ := Store.release_reaches hname hj
      obtain rfl := htraced.eq_markOf hregular hnames hg hcuts
      exact ⟨older, hcuts, hmarks⟩

/-- How many rows the tables of the store have. -/
def rowCounts (j : Journaled Store) : List Nat :=
  j.connection.database.tables.tables.map fun t => t.records.length

/-- A chosen name and one made from a number, with a row written between them. -/
theorem given_two_savepoints :
    let calls : List Call := [.setAutoCommit false, .execute "CREATE TABLE t (a INTEGER)",
      .setSavepoint (some "a"), .execute "INSERT INTO t VALUES (1)", .setSavepoint none]
    let w : Collected (Journaled Store) :=
      (run Delegate.perform calls ⟨⟨{ database := {}, kind := .sqlite }, []⟩, []⟩).2
    Arises Collected.IsFresh w ∧ Arises Store.Opened w ∧ w.delegate.attempts < UInt32.size ∧
      w.savepoints = [⟨1, some "a"⟩, ⟨2, none⟩] ∧
      WellChosen (fun a b => a = b) w.savepoints ∧
      WellChosen (fun a b => sameName a b = true) w.savepoints ∧
      (∀ x ∈ w.delegate.journal, Regular x.request) ∧ (w.savepoints.map Savepoint.sqlName).Nodup ∧
      rowCounts w.delegate = [1] ∧
      rowCounts (stateOf (Delegate.rollbackTo ⟨1, some "a"⟩ w.delegate)) = [0] ∧
      ∀ g ∈ w.given, ∀ j, Delegate.rollbackTo g.savepoint w.delegate = .ok () j →
        j.connection.database.tables = g.behind.connection.database.tables := by
  intro calls w
  obtain ⟨-, hdistinct, hreached⟩ := given_names_distinct (σ := Store)
  have hw : Arises Collected.IsFresh w := .run calls (.fresh ⟨⟨⟨rfl, rfl, rfl⟩, rfl⟩, rfl⟩)
  have hopened : Arises Store.Opened w := .run calls (.fresh ⟨⟨⟨⟨rfl, rfl, rfl⟩, rfl⟩, rfl⟩, rfl⟩)
  have hfew : w.delegate.attempts < UInt32.size := by decide +kernel
  have hgiven : w.savepoints = [⟨1, some "a"⟩, ⟨2, none⟩] := by decide +kernel
  have hchosen : WellChosen (fun a b => a = b) w.savepoints := by
    rw [hgiven]
    exact ⟨by decide, by decide +kernel⟩
  have hchosen' : WellChosen (fun a b => sameName a b = true) w.savepoints := by
    rw [hgiven]
    exact ⟨by decide, by decide +kernel⟩
  have hregular : ∀ x ∈ w.delegate.journal, Regular x.request := by decide +kernel
  refine ⟨hw, hopened, hfew, hgiven, hchosen, hchosen', hregular, hdistinct w hw hfew hchosen,
    by decide +kernel, by decide +kernel, fun g hg j hj => ?_⟩
  obtain ⟨older, -, -, htables⟩ := (hreached w hopened hfew hchosen' hregular g hg).1 j hj
  exact htables

/-- **A chosen name can be one that is made from a number**, and then two values have the same name. A
rollback to the first of them, made before a row was written, reaches the second one, made behind it,
and the row stays. Names that differ by the case of a letter are different, but a store does not tell
them apart, and the same comes of them. -/
theorem generated_name_taken :
    let values (first : String) (second : Option String) : Collected (Journaled Store) :=
      (run Delegate.perform [.setAutoCommit false, .execute "CREATE TABLE t (a INTEGER)",
        .setSavepoint (some first), .execute "INSERT INTO t VALUES (1)", .setSavepoint second]
        ⟨⟨{ database := {}, kind := .sqlite }, []⟩, []⟩).2
    let w := values "sp_2" none
    let v := values "A" (some "a")
    Arises Store.Opened w ∧ w.delegate.attempts < UInt32.size ∧
      w.savepoints = [⟨1, some "sp_2"⟩, ⟨2, none⟩] ∧ (w.savepoints.filterMap Savepoint.name).Nodup ∧
      ¬(w.savepoints.map Savepoint.sqlName).Nodup ∧
      w.given.map (fun g => rowCounts g.behind) = [[0], [1]] ∧
      rowCounts (stateOf (Delegate.rollbackTo ⟨1, some "sp_2"⟩ w.delegate)) = [1] ∧
      Arises Store.Opened v ∧ v.savepoints = [⟨1, some "A"⟩, ⟨2, some "a"⟩] ∧
      rowCounts (stateOf (Delegate.rollbackTo ⟨1, some "A"⟩ v.delegate)) = [1] := by
  intro values w v
  have hopened : ∀ first second, Arises Store.Opened (values first second) :=
    fun _ _ => .run _ (.fresh ⟨⟨⟨⟨rfl, rfl, rfl⟩, rfl⟩, rfl⟩, rfl⟩)
  have hgiven : w.savepoints = [⟨1, some "sp_2"⟩, ⟨2, none⟩] := by decide +kernel
  refine ⟨hopened _ _, by decide +kernel, hgiven, ?_, ?_, by decide +kernel, by decide +kernel,
    hopened _ _, by decide +kernel, by decide +kernel⟩
  · rw [hgiven]
    decide +kernel
  · rw [hgiven]
    decide +kernel

end DeferredTx.Session
