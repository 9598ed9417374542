import DeferredTx.Proofs.Session.Ending
import DeferredTx.Proofs.Session.Given
import DeferredTx.Proofs.Session.Refused

/-!
# What is sent for a new savepoint

The name of a savepoint stands in the text that makes it. So it is checked first, then a transaction is
begun if none is open, then the savepoint is counted, and only then it is made.

* `Savepoint.IsWord`, `Savepoint.checkName_iff_isWord`: the words that are accepted as names.
* `Connection.beginning`, `Connection.next`: what is sent in front of a text, and the next savepoint.
* `Connection.ends_setSavepoint_sent`: **what is sent for a new savepoint**, with success and without.
* `Named`, `Named.invariant`: the savepoints that have been given are those in the texts.
* `names_checked_before_sent`: **no name is sent that is not accepted**, and a refusal costs nothing.
-/

namespace DeferredTx

/-- A letter or underscore, then letters, digits and underscores, all of them ASCII. -/
def Savepoint.IsWord (name : String) : Prop :=
  ∃ c rest, name.toList = c :: rest ∧ (c.isAlpha = true ∨ c = '_') ∧
    ∀ d ∈ rest, d.isAlphanum = true ∨ d = '_'

/-- The words are accepted up to 64 bytes. -/
theorem Savepoint.checkName_iff_isWord (name : String) :
    checkName name = .ok () ↔ IsWord name ∧ name.utf8ByteSize ≤ 64 := by
  rw [checkName_eq_ok_iff]
  constructor
  · rintro ⟨c, rest, hname, hc, hdigit, hrest, hshort⟩
    have hfirst := isNameChar_and_not_isDigit_iff.1 ⟨hc, hdigit⟩
    exact ⟨⟨c, rest, hname, hfirst, fun d hd => isNameChar_iff.1 (List.all_eq_true.1 hrest d hd)⟩, hshort⟩
  · rintro ⟨⟨c, rest, hname, hfirst, hrest⟩, hshort⟩
    obtain ⟨hc, hdigit⟩ := isNameChar_and_not_isDigit_iff.2 hfirst
    have hall : rest.all isNameChar = true :=
      List.all_eq_true.2 fun d hd => isNameChar_iff.2 (hrest d hd)
    exact ⟨c, rest, hname, hc, hdigit, hall, hshort⟩

namespace Session

variable {σ : Type} [Database σ]

namespace Connection

variable {c : Connection (Tapped σ)}

/-- What is sent in front of the next text. -/
def beginning (c : Connection σ) : List String :=
  if !c.autoCommit && !c.inTransaction then [Request.begin.text] else []

/-- The savepoint that is made next, by the name that is chosen. -/
def next (c : Connection σ) (name : Option String) : Savepoint :=
  ⟨c.savepoints + 1, name⟩

omit [Database σ] in
/-- A name that is accepted is no obstacle. -/
theorem ends_refuseBadName_of_ok {name : Option String} {c : Connection σ}
    {Q : Unit → Connection σ → Prop} {R : DbError → Connection σ → Prop}
    (hname : ∀ n, name = some n → Savepoint.checkName n = .ok ()) :
    Ends (refuseBadName name) c Q R ↔ Q () c := by
  unfold refuseBadName
  cases name with
  | none => rfl
  | some n =>
    rw [Option.map_some, hname n rfl]
    rfl

/-- What a text leaves behind, whether it is carried out or not. -/
theorem ends_send_tapped (r : Request) (c : Connection (Tapped σ)) :
    Ends (send r) c
      (fun _ c' => c'.savepoints = c.savepoints ∧ c'.database.sent = c.database.sent ++ [r.text])
      fun _ c' => c'.savepoints = c.savepoints ∧ c'.database.sent = c.database.sent ++ [r.text] := by
  have hsent := Tapped.sent_execute r c.database
  rw [send, ends_onDatabase]
  cases hr : Database.execute r c.database with
  | ok n t =>
    rw [hr] at hsent
    exact ⟨rfl, hsent⟩
  | error e t =>
    rw [hr] at hsent
    exact ⟨rfl, hsent⟩

theorem ends_ensureTransaction_tapped (c : Connection (Tapped σ)) :
    Ends ensureTransaction c
      (fun _ c' => c'.savepoints = c.savepoints ∧ c'.database.sent = c.database.sent ++ c.beginning)
      fun _ c' => c.beginning ≠ [] ∧ c'.savepoints = c.savepoints ∧
        c'.database.sent = c.database.sent ++ c.beginning := by
  simp only [ensureTransaction, ends_bind, ends_get, ends_ite, ends_discard, ends_modify, ends_pure]
  unfold beginning
  split
  · exact (ends_send_tapped .begin c).mono (fun _ _ h => h) fun _ _ h => ⟨List.cons_ne_nil _ _, h⟩
  · exact ⟨trivial, (List.append_nil _).symm⟩

/-- **What is sent for a new savepoint** with the flag off and a name that is accepted. A `BEGIN` that
fails is the end, and no number has been taken. -/
theorem ends_setSavepoint_sent (hoff : c.autoCommit = false) {name : Option String}
    (hname : ∀ n, name = some n → Savepoint.checkName n = .ok ()) :
    Ends (Delegate.setSavepoint name) c
      (fun s c' => s = c.next name ∧ c'.savepoints = c.savepoints + 1 ∧
        c'.database.sent = c.database.sent ++ c.beginning ++ ["SAVEPOINT " ++ s.sqlName])
      fun _ c' =>
        c.beginning ≠ [] ∧ c'.savepoints = c.savepoints ∧
            c'.database.sent = c.database.sent ++ c.beginning ∨
          c'.savepoints = c.savepoints + 1 ∧
            c'.database.sent =
              c.database.sent ++ c.beginning ++ ["SAVEPOINT " ++ (c.next name).sqlName] := by
  simp only [Delegate.setSavepoint]
  rw [ends_bind, ends_refuseInAutoCommit, if_neg (by simp [hoff]), ends_bind,
    ends_refuseBadName_of_ok hname, ends_bind]
  refine (ends_ensureTransaction_tapped c).mono (fun _ c₁ h₁ => ?_) fun _ _ h₁ => .inl h₁
  obtain ⟨hcount, hbegun⟩ := h₁
  simp only [ends_bind, ends_modify, ends_get, ends_discard, ends_pure]
  rw [hcount]
  refine (ends_send_tapped _ _).mono (fun _ c₂ h₂ => ⟨rfl, h₂.1, ?_⟩) fun _ c₂ h₂ => .inr ⟨h₂.1, ?_⟩
  · rw [← hbegun]
    exact h₂.2
  · rw [← hbegun]
    exact h₂.2

/-- A name that is accepted makes the connection send something. -/
theorem sends_of_accepted (hoff : c.autoCommit = false) {name : Option String}
    (hname : ∀ n, name = some n → Savepoint.checkName n = .ok ()) :
    (stateOf (Delegate.setSavepoint name c)).database.sent ≠ c.database.sent := by
  have hmore : ∀ texts : List String, texts ≠ [] → c.database.sent ++ texts ≠ c.database.sent := by
    intro texts hne hsame
    exact hne (List.append_right_eq_self.1 hsame)
  have hends : Ends (Delegate.setSavepoint name) c (fun _ c' => c'.database.sent ≠ c.database.sent)
      fun _ c' => c'.database.sent ≠ c.database.sent := by
    refine (ends_setSavepoint_sent hoff hname).mono (fun s c' h => ?_) fun _ c' h => ?_
    · rw [h.2.2, List.append_assoc]
      exact hmore _ (by simp)
    · rcases h with ⟨hbegin, -, hsent⟩ | ⟨-, hsent⟩
      · rw [hsent]
        exact hmore _ hbegin
      · rw [hsent, List.append_assoc]
        exact hmore _ (by simp)
  exact hends.state

/-- The savepoint that is given is the one in the text that has just been sent. -/
theorem ends_setSavepoint_text (name : Option String) (c : Connection (Tapped σ)) :
    Ends (Delegate.setSavepoint name) c
      (fun s c' => s = c.next name ∧ Savepoint.checkName s.sqlName = .ok () ∧
        c'.database.sent = c.database.sent ++ c.beginning ++ ["SAVEPOINT " ++ s.sqlName])
      fun _ _ => True := by
  cases hoff : c.autoCommit with
  | true =>
    simp only [Delegate.setSavepoint]
    rw [ends_bind, ends_refuseInAutoCommit, if_pos hoff]
    trivial
  | false =>
    by_cases hname : ∀ n, name = some n → Savepoint.checkName n = .ok ()
    · refine (ends_setSavepoint_sent hoff hname).mono (fun s c' h => ?_) fun _ _ _ => trivial
      obtain ⟨rfl, -, hsent⟩ := h
      exact ⟨rfl, checkName_sqlName hname _, hsent⟩
    · -- a refused name gives no savepoint
      simp only [not_forall] at hname
      obtain ⟨n, rfl, hbad⟩ := hname
      cases hn : Savepoint.checkName n with
      | ok _ => exact absurd hn hbad
      | error fault =>
        unfold Ends
        rw [setSavepoint_of_refused hoff hn]
        trivial

end Connection

/-- The savepoints that have been given have names that are accepted, and each of them is the one in the
last text that has been sent then. -/
def Named (w : Collected (Connection (Tapped σ))) : Prop :=
  ∀ g ∈ w.given, Savepoint.checkName g.savepoint.sqlName = .ok () ∧
    g.behind.database.sent.getLast? = some ("SAVEPOINT " ++ g.savepoint.sqlName)

theorem Named.invariant : Invariant (Named (σ := σ)) := by
  -- what has been given does not change afterwards
  refine Collected.invariant_of (fun _ => kept_of_stateOf fun _ h => h)
    (fun _ _ _ => kept_of_stateOf fun _ h => h) fun name w hw => ?_
  refine (Connection.ends_setSavepoint_text name w.delegate).mono (fun s c h => ?_) fun _ _ _ => hw
  obtain ⟨-, hname, hsent⟩ := h
  refine List.forall_mem_append.2 ⟨hw, List.forall_mem_singleton.2 ⟨hname, ?_⟩⟩
  rw [hsent, List.getLast?_concat]

/-- **No name is sent that is not accepted, and a refusal costs nothing.** With the flag off, and over
any database, a connection sends something for a new savepoint exactly if no name has been chosen or
the name is a word of at most 64 bytes, which is what the check accepts. Any other name is an error of
the query; nothing is sent then, not even a `BEGIN`, and no number is taken. A savepoint that is given
has a name that the check accepts, the chosen one or one made from its number, and it is the name in
the text that has been sent for it, which stands behind a `BEGIN` if no transaction has been open. So it
is with all that are given in the course of a life, however many they are. -/
theorem names_checked_before_sent {c : Connection (Tapped σ)} (hoff : c.autoCommit = false)
    (name : Option String) :
    (∀ n, Savepoint.checkName n = .ok () ↔ Savepoint.IsWord n ∧ n.utf8ByteSize ≤ 64) ∧
      ((stateOf (Delegate.setSavepoint name c)).database.sent ≠ c.database.sent ↔
        ∀ n, name = some n → Savepoint.IsWord n ∧ n.utf8ByteSize ≤ 64) ∧
      (∀ n, name = some n → ¬(Savepoint.IsWord n ∧ n.utf8ByteSize ≤ 64) →
        ∃ e, Delegate.setSavepoint name c = .error e c ∧ e.kind = .query) ∧
      (∀ s c', Delegate.setSavepoint name c = .ok s c' →
        s = c.next name ∧ Savepoint.checkName s.sqlName = .ok () ∧
          c'.database.sent = c.database.sent ++ c.beginning ++ ["SAVEPOINT " ++ s.sqlName]) ∧
      ∀ w : Collected (Connection (Tapped σ)), Arises (fun w => w.given = []) w → Named w := by
  have hrefused : ∀ n, name = some n → ¬(Savepoint.IsWord n ∧ n.utf8ByteSize ≤ 64) →
      ∃ e, Delegate.setSavepoint name c = .error e c ∧ e.kind = .query := by
    rintro n rfl hbad
    cases hn : Savepoint.checkName n with
    | ok _ => exact absurd ((Savepoint.checkName_iff_isWord n).1 hn) hbad
    | error fault => exact ⟨_, Connection.setSavepoint_of_refused hoff hn, rfl⟩
  refine ⟨Savepoint.checkName_iff_isWord, ⟨fun hsent n hn => ?_, fun hname => ?_⟩, hrefused,
    fun s c' hmade => (Connection.ends_setSavepoint_text name c).of_ok hmade, fun w hw => ?_⟩
  · by_cases hbad : Savepoint.IsWord n ∧ n.utf8ByteSize ≤ 64
    · exact hbad
    · obtain ⟨e, herror, -⟩ := hrefused n hn hbad
      rw [herror] at hsent
      exact absurd rfl hsent
  · refine Connection.sends_of_accepted hoff fun n hn => ?_
    exact (Savepoint.checkName_iff_isWord n).2 (hname n hn)
  · refine Named.invariant.arises (fun w hfresh g hg => ?_) hw
    rw [hfresh] at hg
    exact absurd hg List.not_mem_nil

/-- A connection over a store that has given two savepoints refuses a name with a quote in it. -/
theorem bad_name_sends_nothing :
    let start : Collected (Connection (Tapped Store)) := ⟨{ database := ⟨{}, []⟩, kind := .sqlite }, []⟩
    let calls : List Call := [.setAutoCommit false, .setSavepoint none, .setSavepoint (some "_sp1")]
    let w := (run Delegate.perform calls start).2
    let c := w.delegate
    Arises (fun w => w.given = []) w ∧ w.savepoints = [⟨1, none⟩, ⟨2, some "_sp1"⟩] ∧ Named w ∧
      c.autoCommit = false ∧ c.database.sent = ["BEGIN", "SAVEPOINT sp_1", "SAVEPOINT _sp1"] ∧
      (stateOf (Delegate.setSavepoint (some "sp'") c)).database.sent = c.database.sent ∧
      ∃ e, Delegate.setSavepoint (some "sp'") c = .error e c ∧ e.kind = .query := by
  intro start calls w c
  have hw : Arises (fun w => w.given = []) w := .run calls (.fresh rfl)
  have hoff : c.autoCommit = false := by decide +kernel
  obtain ⟨haccepted, -, hrefused, -, hnamed⟩ := names_checked_before_sent hoff (some "sp'")
  have hbad : ¬(Savepoint.IsWord "sp'" ∧ "sp'".utf8ByteSize ≤ 64) := by
    rw [← haccepted]
    decide
  obtain ⟨e, herror, hkind⟩ := hrefused "sp'" rfl hbad
  refine ⟨hw, by decide +kernel, hnamed w hw, hoff, by decide +kernel, ?_, e, herror, hkind⟩
  rw [herror]
  rfl

end Session

end DeferredTx
