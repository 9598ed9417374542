import DeferredTx.Proofs.Session.Transactional
import DeferredTx.Proofs.Sql.Word
import DeferredTx.Store.Database

/-!
# Transactions of the in-memory store

* `statements_text`, `read_chunk`: what a connection's own requests are read as.
* `execute_request`: what comes of them.
* `phaseOf_perform`, `perform_outside`: what statements make of the transaction, inside and outside.
* The store is a database with transactions.
* `kept_text`: what every statement of a text keeps, the text keeps.
* `noControl`, `readOnly`: texts of which no statement is about transactions, and texts that only ask
  for rows.
* `Sole`: texts of one statement.
-/

namespace DeferredTx.Store

open Session Sql

/-- The words of a request behind its first one. -/
def words : Request → String × List String
  | .begin => ("BEGIN", [])
  | .commit => ("COMMIT", [])
  | .rollback => ("ROLLBACK", [])
  | .savepoint name => ("SAVEPOINT", [name])
  | .rollbackTo name => ("ROLLBACK", ["TO", "SAVEPOINT", name])
  | .release name => ("RELEASE", ["SAVEPOINT", name])
  | .statement _ => ("", [])

theorem spaced_append (ws vs : List (List Char)) : spaced (ws ++ vs) = spaced ws ++ spaced vs := by
  induction ws with
  | nil => rfl
  | cons w ws ih => simp only [List.cons_append, spaced, ih, List.append_assoc]

/-- The name of a savepoint behind keywords. -/
theorem toList_append_name {keywords : String} {w : List Char} {ws : List (List Char)}
    (h : keywords.toList = w ++ spaced ws ++ [' ']) (name : String) :
    (keywords ++ name).toList = w ++ spaced (ws ++ [name.toList]) := by
  rw [String.toList_append, h, spaced_append]
  simp only [spaced, List.append_assoc, List.cons_append, List.nil_append, List.append_nil]

theorem text_eq_words {r : Request} (hr : r.Proper) :
    r.text.toList = (words r).1.toList ++ spaced ((words r).2.map String.toList) := by
  cases r with
  | statement sql => exact False.elim hr
  | begin => rfl
  | commit => rfl
  | rollback => rfl
  | savepoint name =>
    have hkeywords : "SAVEPOINT ".toList = "SAVEPOINT".toList ++ spaced [] ++ [' '] := by
      decide +kernel
    exact toList_append_name hkeywords name
  | rollbackTo name =>
    have hkeywords : "ROLLBACK TO SAVEPOINT ".toList =
        "ROLLBACK".toList ++ spaced ["TO".toList, "SAVEPOINT".toList] ++ [' '] := by decide +kernel
    exact toList_append_name hkeywords name
  | release name =>
    have hkeywords : "RELEASE SAVEPOINT ".toList =
        "RELEASE".toList ++ spaced ["SAVEPOINT".toList] ++ [' '] := by decide +kernel
    exact toList_append_name hkeywords name

theorem isWord_words {r : Request} (hr : r.Proper) :
    IsWord (words r).1.toList ∧ ∀ w ∈ (words r).2, IsWord w.toList := by
  have hto : IsWord "TO".toList := by decide +kernel
  have hmark : IsWord "SAVEPOINT".toList := by decide +kernel
  cases r with
  | statement sql => exact False.elim hr
  | begin => exact ⟨by decide +kernel, nofun⟩
  | commit => exact ⟨by decide +kernel, nofun⟩
  | rollback => exact ⟨by decide +kernel, nofun⟩
  | savepoint name =>
    have hname : IsWord name.toList := isWord_of_checkName hr
    exact ⟨hmark, List.forall_mem_singleton.2 hname⟩
  | rollbackTo name =>
    have hname : IsWord name.toList := isWord_of_checkName hr
    have hfirst : IsWord "ROLLBACK".toList := by decide +kernel
    refine ⟨hfirst, List.forall_mem_cons.2 ⟨hto, List.forall_mem_cons.2 ⟨hmark, ?_⟩⟩⟩
    exact List.forall_mem_singleton.2 hname
  | release name =>
    have hname : IsWord name.toList := isWord_of_checkName hr
    have hfirst : IsWord "RELEASE".toList := by decide +kernel
    exact ⟨hfirst, List.forall_mem_cons.2 ⟨hmark, List.forall_mem_singleton.2 hname⟩⟩

/-- The tokens of a request. -/
def chunk (r : Request) : List Token :=
  ⟨.word (words r).1, [], (words r).1.toList⟩ ::
    (words r).2.map (fun w => ⟨.word w, [' '], w.toList⟩) ++ [⟨.stop, [], []⟩]

theorem statements_text {r : Request} (hr : r.Proper) : statements r.text = [chunk r] := by
  obtain ⟨hfirst, hrest⟩ := isWord_words hr
  have htokens : tokens .store r.text.toList = chunk r := by
    rw [text_eq_words hr, tokens_words hfirst (by simpa using hrest)]
    simp [chunk, Function.comp_def]
  rw [statements, htokens]
  cases r <;> rfl

/-- The statement that a connection's own request stands for. -/
def requested : Request → Sql.Statement
  | .begin => .begin []
  | .commit => .commit
  | .rollback => .rollback
  | .savepoint name => .savepoint ⟨none, name⟩
  | .rollbackTo name => .rollbackTo ⟨none, name⟩
  | .release name => .release ⟨none, name⟩
  | .statement _ => .query ⟨[], { items := [] }⟩

/-- Takes the name of a savepoint. -/
theorem read_name (name : String) (f : Name → Sql.Statement) (ts : List Token) :
    (do return f (← Reader.name .store) : Reader Sql.Statement)
        (⟨.word name, [' '], name.toList⟩ :: ts) =
      if isOneOf name Dialect.store.reserved then none else some (f ⟨none, name⟩, ts) := by
  simp only [Reader.name, Reader.token, bind, StateT.bind]
  split <;> rfl

theorem read_savepoint (gap text : List Char) (t : Token) (ts : List Token) :
    Sql.Statement.read .store (⟨.word "SAVEPOINT", gap, text⟩ :: t :: ts) =
      (do return .savepoint (← Reader.name .store) : Reader Sql.Statement) (t :: ts) := rfl

theorem read_rollbackTo (gap gap' gap'' text text' text'' : List Char) (t : Token) (ts : List Token) :
    Sql.Statement.read .store (⟨.word "ROLLBACK", gap, text⟩ :: ⟨.word "TO", gap', text'⟩ ::
        ⟨.word "SAVEPOINT", gap'', text''⟩ :: t :: ts) =
      (do return .rollbackTo (← Reader.name .store) : Reader Sql.Statement) (t :: ts) := rfl

theorem read_release (gap gap' text text' : List Char) (t : Token) (ts : List Token) :
    Sql.Statement.read .store
        (⟨.word "RELEASE", gap, text⟩ :: ⟨.word "SAVEPOINT", gap', text'⟩ :: t :: ts) =
      (do return .release (← Reader.name .store) : Reader Sql.Statement) (t :: ts) := rfl

/-- The store reads a request as what it stands for, or not at all, if the name of the savepoint is
one of its own words. -/
theorem read_chunk {r : Request} (hr : r.Proper) :
    Sql.Statement.read .store (chunk r) = none ∨
      Sql.Statement.read .store (chunk r) = some (requested r, [⟨.stop, [], []⟩]) := by
  have hname : ∀ (name : String) (f : Name → Sql.Statement) (cs : List Token),
      Sql.Statement.read .store cs = (do return f (← Reader.name .store) : Reader Sql.Statement)
        [⟨.word name, [' '], name.toList⟩, ⟨.stop, [], []⟩] →
      Sql.Statement.read .store cs = none ∨
        Sql.Statement.read .store cs = some (f ⟨none, name⟩, [⟨.stop, [], []⟩]) := by
    intro name f cs h
    rw [h, read_name]
    split
    · exact Or.inl rfl
    · exact Or.inr rfl
  cases r with
  | statement sql => exact False.elim hr
  | begin => exact Or.inr rfl
  | commit => exact Or.inr rfl
  | rollback => exact Or.inr rfl
  | savepoint name => exact hname name .savepoint _ (read_savepoint ..)
  | rollbackTo name => exact hname name .rollbackTo _ (read_rollbackTo ..)
  | release name => exact hname name .release _ (read_release ..)

/-- What a part has given that another one rests on. -/
theorem eq_of_bind {α β : Type} {x : Except Fault α} {f : α → β} {b : β}
    (h : (do return f (← x) : Except Fault β) = .ok b) : ∃ a, x = .ok a ∧ f a = b := by
  cases x with
  | error fault => cases h
  | ok a => exact ⟨a, rfl, Except.ok.inj h⟩

theorem none_of_bind {x : Except Fault Store} {result : Option Relation} {s' : Store}
    (h : (do return (none, ← x) : Except Fault (Option Relation × Store)) = .ok (result, s')) :
    result = none ∧ x = .ok s' := by
  obtain ⟨a, hx, hpair⟩ := eq_of_bind h
  cases hpair
  exact ⟨rfl, hx⟩

/-- A request of a connection's own gives no rows. -/
theorem perform_requested {r : Request} (hr : r.Proper) {s s' : Store} {result : Option Relation}
    (h : s.perform (requested r) = .ok (result, s')) : result = none := by
  cases r with
  | statement sql => exact False.elim hr
  | savepoint name =>
    simp only [requested, perform, Except.ok.injEq, Prod.mk.injEq] at h
    exact h.1.symm
  | begin => exact (none_of_bind h).1
  | commit => exact (none_of_bind h).1
  | rollback => exact (none_of_bind h).1
  | rollbackTo name => exact (none_of_bind h).1
  | release name => exact (none_of_bind h).1

/-- A connection's own request is carried out as the statement that it stands for, or fails and
changes neither tables nor transaction. -/
theorem execute_request {r : Request} (hr : r.Proper) (s : Store) :
    Ends (execute r.text) s (fun _ s' => s.perform (requested r) = .ok (none, s'))
      fun _ s' => s'.tables = s.tables ∧ s'.transaction = s.transaction := by
  rw [execute, statements_text hr]
  simp only [List.foldlM_cons, List.foldlM_nil, ends_bind, ends_discard, ends_get, ends_pure]
  unfold Ends step
  rcases read_chunk hr with hnone | hread
  · simp only [hnone, and_self]
  · simp only [hread]
    cases hp : s.perform (requested r) with
    | error fault => cases fault <;> simp
    | ok p =>
      obtain ⟨result, s'⟩ := p
      obtain rfl := perform_requested hr hp
      simp

/-- The phase that an open transaction stands for. -/
def phaseOf : Option Transaction → Phase Catalog
  | none => .idle
  | some t => if t.bySavepoint then .foreign else .begun t.before

theorem eq_none_of_phaseOf {t : Option Transaction} (h : phaseOf t = .idle) : t = none := by
  cases t with
  | none => rfl
  | some u => cases hu : u.bySavepoint <;> simp [phaseOf, hu] at h

theorem eq_some_of_phaseOf {t : Option Transaction} {before : Catalog}
    (h : phaseOf t = .begun before) :
    ∃ u, t = some u ∧ u.bySavepoint = false ∧ u.before = before := by
  cases t with
  | none => cases h
  | some u =>
    cases hu : u.bySavepoint with
    | true => simp [phaseOf, hu] at h
    | false => exact ⟨u, rfl, hu, by simpa [phaseOf, hu] using h⟩

/-- A change of the savepoints alone. -/
theorem phaseOf_marks {u : Transaction} (hu : u.bySavepoint = false) (marks : List Mark) :
    phaseOf (some { u with marks := marks }) = .begun u.before := by
  simp [phaseOf, hu]

/-- Whether a statement is about transactions. -/
def controls : Sql.Statement → Bool
  | .begin _ | .commit | .rollback | .savepoint _ | .release _ | .rollbackTo _ => true
  | _ => false

/-- A statement that is not about transactions leaves the transaction as it is. -/
theorem transaction_perform {statement : Sql.Statement} (hc : controls statement = false)
    {s s' : Store} {result : Option Relation} (h : s.perform statement = .ok (result, s')) :
    s'.transaction = s.transaction := by
  cases statement with
  | query q | insert replacing table columns rows | update table changes condition
  | delete table condition | createTable unlessExists table columns | dropTable ifExists table =>
    obtain ⟨a, -, hpair⟩ := eq_of_bind h
    cases hpair
    rfl
  | begin | commit | rollback | savepoint | release | rollbackTo => cases hc

/-- Whether a statement opens a transaction where there is none. -/
def opens : Sql.Statement → Bool
  | .begin _ | .savepoint _ => true
  | _ => false

/-- Whether a statement ends the transaction that `BEGIN` has opened. -/
def closes : Sql.Statement → Bool
  | .commit | .rollback => true
  | _ => false

/-- In a transaction that `BEGIN` has opened, savepoints are made, released and rolled back to without
an end of it. -/
theorem phaseOf_perform {statement : Sql.Statement} (hc : closes statement = false) {s s' : Store}
    {u : Transaction} {result : Option Relation} (hs : s.transaction = some u)
    (hu : u.bySavepoint = false) (h : s.perform statement = .ok (result, s')) :
    phaseOf s'.transaction = .begun u.before := by
  have hbegun : phaseOf (some u) = .begun u.before := phaseOf_marks hu u.marks
  cases statement with
  | commit | rollback => cases hc
  | begin kind =>
    obtain ⟨a, ha, -⟩ := eq_of_bind h
    simp only [Store.begin, hs] at ha
    cases ha
  | savepoint name =>
    simp only [perform, mark, hs, Except.ok.injEq, Prod.mk.injEq] at h
    obtain ⟨-, rfl⟩ := h
    exact phaseOf_marks hu _
  | rollbackTo name =>
    obtain ⟨a, ha, hpair⟩ := eq_of_bind h
    cases hpair
    simp only [rollbackTo, hs] at ha
    split at ha
    · cases ha
    · cases ha
      exact phaseOf_marks hu _
  | release name =>
    obtain ⟨a, ha, hpair⟩ := eq_of_bind h
    cases hpair
    simp only [release, hs, hu, Bool.false_and, Bool.false_eq_true, if_false] at ha
    split at ha
    · cases ha
    · cases ha
      rfl
  | query | insert | update | delete | createTable | dropTable =>
    rw [transaction_perform rfl h, hs]
    exact hbegun

/-- Outside a transaction there is nothing to end, to release or to roll back to. -/
theorem perform_outside {statement : Sql.Statement} (ho : opens statement = false) {s s' : Store}
    {result : Option Relation} (hs : s.transaction = none)
    (h : s.perform statement = .ok (result, s')) : s'.transaction = none := by
  cases statement with
  | begin | savepoint => cases ho
  | commit =>
    obtain ⟨a, ha, -⟩ := eq_of_bind h
    simp only [Store.commit, hs] at ha
    cases ha
  | rollback =>
    obtain ⟨a, ha, -⟩ := eq_of_bind h
    simp only [Store.rollback, hs] at ha
    cases ha
  | rollbackTo name =>
    obtain ⟨a, ha, -⟩ := eq_of_bind h
    simp only [rollbackTo, hs] at ha
    cases ha
  | release name =>
    obtain ⟨a, ha, -⟩ := eq_of_bind h
    simp only [release, hs] at ha
    cases ha
  | query | insert | update | delete | createTable | dropTable =>
    rw [transaction_perform rfl h, hs]

/-- **The store is a database with transactions.** What `SAVEPOINT` opens outside of one is ended by
the release of that savepoint; what `BEGIN` opens is not. -/
instance : Transactional Store Catalog where
  content s := s.tables
  phase s := phaseOf s.transaction
  fail := by
    intro r hr s s' e h
    obtain ⟨htables, htransaction⟩ := (execute_request hr s).of_error h
    exact ⟨htables, by rw [htransaction]⟩
  begin := by
    intro s s' n hidle h
    obtain ⟨-, hp⟩ := none_of_bind ((execute_request (r := .begin) trivial s).of_ok h)
    simp only [Store.begin, eq_none_of_phaseOf hidle] at hp
    cases hp
    exact ⟨rfl, rfl⟩
  commit := by
    intro s s' n before hbegun h
    obtain ⟨u, hs, -, -⟩ := eq_some_of_phaseOf hbegun
    obtain ⟨-, hp⟩ := none_of_bind ((execute_request (r := .commit) trivial s).of_ok h)
    simp only [Store.commit, hs] at hp
    cases hp
    exact ⟨rfl, rfl⟩
  rollback := by
    intro s s' n before hbegun h
    obtain ⟨u, hs, -, hbefore⟩ := eq_some_of_phaseOf hbegun
    obtain ⟨-, hp⟩ := none_of_bind ((execute_request (r := .rollback) trivial s).of_ok h)
    simp only [Store.rollback, hs] at hp
    cases hp
    exact ⟨hbefore, rfl⟩
  mark := by
    intro r hr hm s s' n before hbegun h
    obtain ⟨u, hs, hu, rfl⟩ := eq_some_of_phaseOf hbegun
    have hc : closes (requested r) = false := by cases r <;> first | rfl | cases hm
    exact phaseOf_perform hc hs hu ((execute_request hr s).of_ok h)
  outside := by
    intro r hr hm s s' n hidle h
    -- there is no savepoint outside a transaction
    have hp := (execute_request hr s).of_ok h
    have hnone := eq_none_of_phaseOf hidle
    cases r with
    | rollbackTo name =>
      obtain ⟨-, hp⟩ := none_of_bind hp
      simp only [rollbackTo, hnone] at hp
      cases hp
    | release name =>
      obtain ⟨-, hp⟩ := none_of_bind hp
      simp only [release, hnone] at hp
      cases hp
    | begin | commit | rollback | savepoint | statement => cases hm

/-- What a statement keeps is kept by its step, if it has nothing to do with the count of changed
rows. -/
theorem kept_step {P : Store → Prop}
    (hchanged : ∀ (s : Store) (n : Nat), P s → P { s with changed := n }) {chunk : List Token}
    (h : ∀ statement ts, Sql.Statement.read .store chunk = some (statement, ts) →
      ∀ s result s', P s → s.perform statement = .ok (result, s') → P s') : Kept P (step chunk) := by
  refine kept_of_stateOf fun s hs => ?_
  unfold step
  split
  · rename_i statement gap text hread
    cases hp : s.perform statement with
    | error fault =>
      cases fault with
      | refused => exact hs
      | violated => exact hchanged s 0 hs
    | ok p =>
      have hkept := h statement _ hread s p.1 p.2 hs hp
      dsimp only
      split <;> exact hkept
  · exact hs

/-- Whether all statements of a text pass a test, as far as they can be read. -/
def allPass (test : Sql.Statement → Bool) (sql : String) : Bool :=
  (statements sql).all fun chunk => (Sql.Statement.read .store chunk).all fun p => test p.1

/-- **What every statement of a text keeps is kept by the text**, executed or queried. -/
theorem kept_text {P : Store → Prop}
    (hchanged : ∀ (s : Store) (n : Nat), P s → P { s with changed := n })
    {test : Sql.Statement → Bool} (htest : ∀ statement, test statement = true →
      ∀ s result s', P s → s.perform statement = .ok (result, s') → P s')
    {sql : String} (h : allPass test sql = true) : Kept P (execute sql) ∧ Kept P (query sql) := by
  have hstep : ∀ chunk ∈ statements sql, Kept P (step chunk) := by
    intro chunk hm
    have hchunk := List.all_eq_true.1 h chunk hm
    refine kept_step hchanged fun statement ts hread => htest statement ?_
    simpa [hread] using hchunk
  constructor
  · refine kept_foldlM _ _ fun chunk hm total => kept_bind ?_ fun _ => ?_
    · intro s hs
      rw [ends_discard]
      exact hstep chunk hm s hs
    · exact fun s hs => hs
  · refine kept_bind (kept_mapM _ hstep) fun results s hs => ?_
    split <;> exact hs

/-- The text is this one statement. -/
def Sole (sql : String) (statement : Sql.Statement) : Prop :=
  ∃ chunk gap text, statements sql = [chunk] ∧
    Sql.Statement.read .store chunk = some (statement, [⟨.stop, gap, text⟩])

theorem step_of_read {chunk : List Token} {statement : Sql.Statement} {gap text : List Char}
    (hread : Sql.Statement.read .store chunk = some (statement, [⟨.stop, gap, text⟩])) {s s' : Store}
    (hp : s.perform statement = .ok (none, s')) : step chunk s = .ok none s' := by
  unfold step
  simp only [hread, hp]
  rfl

/-- A text of one statement does what the statement does. -/
theorem execute_of_sole {sql : String} {statement : Sql.Statement} (h : Sole sql statement)
    {s s' : Store} (hp : s.perform statement = .ok (none, s')) :
    execute sql s = .ok (0 + s'.changed) s' := by
  obtain ⟨chunk, gap, text, hsql, hread⟩ := h
  rw [execute, hsql]
  simp only [List.foldlM_cons, List.foldlM_nil, bind, EStateM.bind, discard, Functor.mapConst,
    Function.comp_apply, EStateM.map, step_of_read hread hp]
  rfl

theorem query_of_sole {sql : String} {statement : Sql.Statement} (h : Sole sql statement)
    {s s' : Store} (hp : s.perform statement = .ok (none, s')) : query sql s = .ok [] s' := by
  obtain ⟨chunk, gap, text, hsql, hread⟩ := h
  rw [query, hsql]
  simp only [List.mapM_cons, List.mapM_nil, bind, EStateM.bind, step_of_read hread hp]
  rfl

/-- A text of which no statement is about transactions is one without transaction control. -/
theorem noControl {sql : String} (h : allPass (fun s => !controls s) sql = true) :
    NoControl Store sql := by
  intro s
  have hkept := kept_text (P := fun t => t.transaction = s.transaction) (fun _ _ ht => ht)
    (fun statement hc t result t' ht hp => (transaction_perform (by simpa using hc) hp).trans ht) h
  exact ⟨congrArg phaseOf (hkept.1 s rfl).state, congrArg phaseOf (hkept.2 s rfl).state⟩

/-- Whether a statement only asks for rows. -/
def isQuery : Sql.Statement → Bool
  | .query _ => true
  | _ => false

theorem tables_perform {statement : Sql.Statement} (hq : isQuery statement = true) {s s' : Store}
    {result : Option Relation} (h : s.perform statement = .ok (result, s')) :
    s'.tables = s.tables := by
  cases statement with
  | query q =>
    obtain ⟨rows, -, hpair⟩ := eq_of_bind h
    cases hpair
    rfl
  | _ => cases hq

/-- A text of which every statement only asks for rows does not change the tables. -/
theorem readOnly {sql : String} (h : allPass isQuery sql = true) : ReadOnly Store sql := by
  intro s
  have hkept := kept_text (P := fun t => t.tables = s.tables) (fun _ _ ht => ht)
    (fun statement hq t result t' ht hp => (tables_perform hq hp).trans ht) h
  exact ⟨(hkept.1 s rfl).state, (hkept.2 s rfl).state⟩

end DeferredTx.Store
