import DeferredTx.Proofs.Session.PassThrough
import DeferredTx.Proofs.Shell.Accounting
import DeferredTx.Proofs.Shell.Pieces

/-!
# The shell runs what the splitter reads

In auto-commit nothing is sent but the statements themselves.

* `sendStatement`: a statement sent to a database as what it is.
* `performAll_pieces`: texts are run by sending the statements that they are split into.
* `script_sends_split`: **what a script makes the shell send is what the script is split into**, in
  whatever lines it is written.
-/

namespace DeferredTx.Shell

open DeferredTx.Session (Connection Connector Controller Database Reply Tapped answerOf applySettings
  bind_eq_ok exists_ok_of_answer inMemory mapM_append_eq_ok mapM_cons_eq_ok openWith pure_eq_ok)

variable {σ α : Type}

/-- Whether a statement asks for rows. -/
def asksRows (sql : String) : Bool :=
  match Statement.classify sql with
  | .ok c => c.kind == .query
  | .error _ => false

/-- Sends a statement to a database: a query for its rows, any other one for how many rows it
affects. -/
def sendStatement [Database σ] (sql : String) : EStateM StatementError σ Reply :=
  if asksRows sql then return .rows (← Database.query sql)
  else return .count (← Database.execute (.statement sql))

/-- What is printed of replies. -/
def printedAll (replies : List Reply) : List String :=
  replies.flatMap fun r => printed (.ok r)

section Tapped

variable [Database σ] {texts : List String} {replies : List Reply} {db db' : σ} {sql : String}
  {r : Reply}

theorem sendStatement_eq_ok : sendStatement sql db = .ok r db' ↔
    (asksRows sql = true ∧ ∃ rows, Database.query sql db = .ok rows db' ∧ r = .rows rows) ∨
      (asksRows sql = false ∧
        ∃ n, Database.execute (.statement sql) db = .ok n db' ∧ r = .count n) := by
  have hreply : ∀ {γ : Type} {act : EStateM StatementError σ γ} {g : γ → Reply},
      (do return g (← act) : EStateM StatementError σ Reply) db = .ok r db' ↔
        ∃ a, act db = .ok a db' ∧ r = g a := by
    intro γ act g
    simp only [bind_eq_ok, pure_eq_ok]
    exact ⟨fun ⟨a, _, ha, hr, ht⟩ => ⟨a, ht ▸ ha, hr⟩, fun ⟨a, ha, hr⟩ => ⟨a, db', ha, hr, rfl⟩⟩
  unfold sendStatement
  cases asksRows sql with
  | true => simp only [if_true, hreply, true_and, Bool.true_eq_false, false_and, or_false]
  | false => simp only [Bool.false_eq_true, if_false, hreply, false_and, true_and, false_or]

/-- A statement that is sent is written down. -/
theorem sendStatement_tapped (h : sendStatement sql db = .ok r db') (sent : List String) :
    sendStatement sql (⟨db, sent⟩ : Tapped σ) = .ok r ⟨db', sent ++ [sql]⟩ := by
  refine sendStatement_eq_ok.2 ?_
  rcases sendStatement_eq_ok.1 h with ⟨hrows, rows, hquery, rfl⟩ | ⟨hrows, n, hexecute, rfl⟩
  · refine Or.inl ⟨hrows, rows, ?_, rfl⟩
    show Tapped.tap sql (Database.query sql) ⟨db, sent⟩ = _
    rw [Tapped.tap, hquery]
  · refine Or.inr ⟨hrows, n, ?_, rfl⟩
    show Tapped.tap sql (Database.execute (.statement sql)) ⟨db, sent⟩ = _
    rw [Tapped.tap, hexecute]

/-- What has been sent is the texts, one after another. -/
theorem sendAll_tapped (h : texts.mapM sendStatement db = .ok replies db') (sent : List String) :
    (texts.mapM sendStatement : EStateM StatementError (Tapped σ) _) ⟨db, sent⟩ =
      .ok replies ⟨db', sent ++ texts⟩ := by
  induction texts generalizing db sent replies with
  | nil =>
    cases h
    rw [List.append_nil]
    rfl
  | cons sql more ih =>
    obtain ⟨r, db₁, rest, hsql, hmore, rfl⟩ := mapM_cons_eq_ok.1 h
    refine mapM_cons_eq_ok.2 ⟨r, _, rest, sendStatement_tapped hsql sent, ?_, rfl⟩
    rw [ih hmore, List.append_assoc]
    rfl

end Tapped

namespace Session

/-- A session in auto-commit, with its connection in auto-commit. -/
structure InAutoCommit (s : Session (Connection σ)) : Prop where
  caller : s.controller.autoCommit = true
  connection : s.controller.delegate.autoCommit = true

/-- A session with another state of its database. -/
def withDatabase (s : Session (Connection σ)) (db : σ) : Session (Connection σ) :=
  { s with
    controller := { s.controller with delegate := { s.controller.delegate with database := db } } }

theorem InAutoCommit.withDatabase {s : Session (Connection σ)} (h : s.InAutoCommit) (db : σ) :
    (s.withDatabase db).InAutoCommit :=
  ⟨h.caller, h.connection⟩

variable [Database σ] {s : Session (Connection σ)} {texts : List String} {replies : List Reply} {db : σ}

omit [Database σ] in
theorem onDatabase_of_ok {act : EStateM StatementError σ α} {a : α}
    (h : act s.controller.delegate.database = .ok a db) :
    onController (Controller.onDelegate (Connection.onDatabase act)) s = .ok a (s.withDatabase db) := by
  rw [onController, Controller.onDelegate, Connection.onDatabase, h]
  rfl

/-- In auto-commit the controller and the connection have nothing of their own to send. -/
theorem forwarded (hmode : s.InAutoCommit) (sql : String) :
    let sent {α : Type} (act : EStateM StatementError σ α) :=
      onController (Controller.onDelegate (Connection.onDatabase act)) s
    onController (Controller.query sql) s = sent (Database.query sql) ∧
      onController (Controller.execute sql) s = sent (Database.execute (.statement sql)) := by
  -- with both flags on, neither `beforeExecute` nor `ensureTransaction` does anything
  obtain ⟨⟨⟨database, kind, on, inTransaction, savepoints⟩, caller, smart⟩, k, sps⟩ := s
  obtain ⟨rfl, rfl⟩ : caller = true ∧ on = true := ⟨hmode.caller, hmode.connection⟩
  exact ⟨rfl, rfl⟩

/-- In auto-commit a statement is sent as it is. -/
theorem runStatement_autoCommit (hmode : s.InAutoCommit) {sql : String} {c : Statement.Classified}
    (hclass : Statement.classify sql = .ok c) {r : Reply}
    (h : sendStatement sql s.controller.delegate.database = .ok r db) :
    runStatement sql s = .ok (printed (.ok r)) (s.withDatabase db) := by
  have hrows : asksRows sql = (c.kind == .query) := by rw [asksRows, hclass]
  obtain ⟨hqueried, hexecuted⟩ := forwarded hmode sql
  rcases sendStatement_eq_ok.1 h with ⟨hasks, rows, hquery, rfl⟩ | ⟨hasks, n, hexecute, rfl⟩
  · have hdone := hqueried.trans (onDatabase_of_ok hquery)
    rw [hrows] at hasks
    unfold runStatement
    simp only [hclass, hasks, if_true, bind, EStateM.bind, hdone]
    rfl
  · have hdone := hexecuted.trans (onDatabase_of_ok hexecute)
    rw [hrows] at hasks
    unfold runStatement
    simp only [hclass, hasks, Bool.false_eq_true, if_false, bind, EStateM.bind, hdone]
    rfl

/-- In auto-commit statements are sent one after another. -/
theorem runAll_autoCommit (hmode : s.InAutoCommit)
    (hclass : ∀ sql ∈ texts, ∃ c, Statement.classify sql = .ok c)
    (h : texts.mapM sendStatement s.controller.delegate.database = .ok replies db) :
    runAll texts s = (printedAll replies, none, s.withDatabase db) := by
  induction texts generalizing s replies with
  | nil =>
    cases h
    rfl
  | cons sql more ih =>
    obtain ⟨⟨c, hc⟩, hmoreClass⟩ := List.forall_mem_cons.1 hclass
    obtain ⟨r, db₁, rest, hsql, hmore, rfl⟩ := mapM_cons_eq_ok.1 h
    have hstep := runStatement_autoCommit hmode hc hsql
    have hrest := ih (hmode.withDatabase db₁) hmoreClass hmore
    rw [runAll, hstep]
    simp only [hrest]
    rfl

/-- **Texts are run by sending the statements that they are split into.** -/
theorem performAll_pieces (hmode : s.InAutoCommit) {pieces : List (String × List String)}
    (hpieces : ∀ p ∈ pieces, s.split s.kind p.1 = .ok p.2)
    (hclass : ∀ sql ∈ pieces.flatMap Prod.snd, ∃ c, Statement.classify sql = .ok c)
    (h : (pieces.flatMap Prod.snd).mapM sendStatement s.controller.delegate.database = .ok replies db) :
    performAll (pieces.map fun p => .run p.1) s =
      ((printedAll replies).map .output, s.withDatabase db) := by
  induction pieces generalizing s replies with
  | nil =>
    cases h
    rfl
  | cons p pieces ih =>
    obtain ⟨hp, hmorePieces⟩ := List.forall_mem_cons.1 hpieces
    rw [List.flatMap_cons] at h hclass
    obtain ⟨hpClass, hmoreClass⟩ := List.forall_mem_append.1 hclass
    obtain ⟨front, db₁, back, hfront, hback, rfl⟩ := mapM_append_eq_ok h
    have hstep := runAll_autoCommit hmode hpClass hfront
    have hrest := ih (hmode.withDatabase db₁) hmorePieces hmoreClass hback
    rw [List.map_cons, performAll, perform, runStep, statementsOf, hp]
    have hprinted : printedAll (front ++ back) = printedAll front ++ printedAll back :=
      List.flatMap_append
    simp only [hstep, hrest, hprinted, List.map_append, Option.map_none, Option.toList_none,
      List.append_nil]
    rfl

/-! ### What is opened -/

omit [Database σ] in
/-- What is connected to is the database that the library gives. -/
theorem eq_of_connect {connector : Connector σ} {address : String} {c : Connection σ}
    (h : connector.connect address = .ok c) :
    ∃ database kind, connector address = .ok database ∧ DatabaseKind.ofUrl? address = some kind ∧
      c = { database, kind } := by
  unfold Connector.connect at h
  cases hkind : DatabaseKind.ofUrl? address with
  | none =>
    rw [hkind] at h
    cases h
  | some kind =>
    rw [hkind] at h
    cases hanswer : connector address with
    | error fault =>
      rw [hanswer] at h
      cases h
    | ok database =>
      rw [hanswer] at h
      exact ⟨database, kind, rfl, rfl, (Except.ok.inj h).symm⟩

/-- Settings are applied to a fresh connection by setting its modes, and nothing is sent. -/
theorem applySettings_fresh (settings : Settings) (database : σ) (kind : DatabaseKind) :
    applySettings settings (⟨{ database, kind }, true, true⟩ : Controller (Connection σ)) =
      .ok () ⟨{ database, kind, autoCommit := settings.autoCommit.getD true || settings.smartCommit },
        settings.autoCommit.getD true, settings.smartCommit⟩ := by
  obtain ⟨dsn, smart, on⟩ := settings
  cases smart <;> rcases on with _ | _ | _ <;> rfl

/-- What is opened, if anything is: the database that the library gives, with the modes of the
settings. -/
theorem eq_of_openWith {connector : Connector σ} {settings : Settings}
    {controller : Controller (Connection σ)} (h : connector.openWith settings = .ok controller) :
    ∃ database kind, connector (Dsn.address settings.dsn) = .ok database ∧
      DatabaseKind.ofUrl? (Dsn.address settings.dsn) = some kind ∧
      controller = ⟨{ database, kind
                      autoCommit := settings.autoCommit.getD true || settings.smartCommit },
        settings.autoCommit.getD true, settings.smartCommit⟩ := by
  unfold Connector.openWith at h
  cases hconnect : connector.connect (Dsn.address settings.dsn) with
  | error e =>
    rw [hconnect] at h
    cases h
  | ok c =>
    obtain ⟨database, kind, hanswer, hkind, rfl⟩ := eq_of_connect hconnect
    have hwrap : Controller.wrap ({ database, kind } : Connection σ) =
        .ok ⟨{ database, kind }, true, true⟩ := rfl
    simp only [hconnect, hwrap, bind, Except.bind, applySettings_fresh] at h
    exact ⟨database, kind, hanswer, hkind, (Except.ok.inj h).symm⟩

/-- The session of the program is in auto-commit if its settings do not switch it off. -/
theorem inAutoCommit_of_openWith {connector : Connector σ} {settings : Settings}
    {controller : Controller (Connection σ)} (h : connector.openWith settings = .ok controller)
    (hon : settings.autoCommit ≠ some false) (split : Splitter) :
    (start split controller).InAutoCommit := by
  have hmode : settings.autoCommit.getD true = true := by
    cases hmode : settings.autoCommit with
    | none => rfl
    | some on =>
      cases on with
      | true => rfl
      | false => exact absurd hmode hon
  obtain ⟨database, kind, -, -, rfl⟩ := eq_of_openWith h
  exact ⟨hmode, by simp [start, hmode]⟩

/-- Only databases of SQLite in memory are in the store, and they are empty. -/
theorem eq_of_inMemory {address : String} {db : Store} (h : inMemory address = .ok db) :
    DatabaseKind.ofUrl? address = some .sqlite ∧ db = {} := by
  unfold inMemory at h
  split at h
  · rename_i hmemory
    exact ⟨hmemory.1, (Except.ok.inj h).symm⟩
  · cases h

/-- The program sends the statements of its script to the database that it has opened. -/
theorem program_of_pieces {files : Files} {vars : Variables} {source : Source} {settings : Settings}
    {controller : Controller (Connection Store)} {bytes : ByteArray} {lines : List String}
    {pieces : List (String × List String)} {db : Store}
    (hload : Settings.load files vars = .ok settings) (hopen : openWith settings = .ok controller)
    (hon : settings.autoCommit ≠ some false) (hsource : source.bytes files = .ok bytes)
    (hread : readLines bytes.toList = (lines, true))
    (hsteps : steps lines = pieces.map fun p => .run p.1)
    (hpieces : ∀ p ∈ pieces, Sql.Script.split .sqlite p.1 = .ok p.2)
    (hclass : ∀ sql ∈ pieces.flatMap Prod.snd, ∃ c, Statement.classify sql = .ok c)
    (hsend : (pieces.flatMap Prod.snd).mapM sendStatement ({} : Store) = .ok replies db) :
    program files vars source = ⟨(printedAll replies).map .output, 0⟩ := by
  have hmode := inAutoCommit_of_openWith hopen hon Sql.Script.split
  obtain ⟨database, kind, hanswer, hkind, hopened⟩ := eq_of_openWith hopen
  obtain ⟨hsqlite, rfl⟩ := eq_of_inMemory hanswer
  obtain rfl := Option.some.inj (hkind.symm.trans hsqlite)
  have hperform : performAll (steps lines) (start Sql.Script.split controller) =
      ((printedAll replies).map .output, withDatabase (start Sql.Script.split controller) db) := by
    rw [hsteps]
    refine performAll_pieces hmode ?_ hclass ?_
    · rw [hopened]
      exact hpieces
    · rw [hopened]
      exact hsend
  unfold program programOver
  simp only [hload, show inMemory.openWith settings = .ok controller from hopen, hsource, hread,
    if_true, hperform]
  rfl

/-- **What a script makes the shell send is what the script is split into**, in whatever lines it is
written. The script can be split, statements are complete behind each of its lines that ends in a
semicolon, no token has a carriage return in front of a line feed, and the statements can be
classified. If they succeed one after another, the session sends them and nothing else, and prints what
comes back. So does the program, to the database that it opens, and then it ends well. -/
theorem script_sends_split {script : String} {ls : List (List Char)} {sent : List String} {db' : σ}
    {s : Session (Connection (Tapped σ))} (hsplitter : s.split = Sql.Script.split)
    (hkind : s.kind = .sqlite) (hmode : s.InAutoCommit)
    (hdatabase : s.controller.delegate.database = ⟨db, sent⟩)
    (hsplit : Sql.Script.split .sqlite script = .ok texts)
    (hlines : Lines script.toList ls) (hstops : WholeAtStops [] ls)
    (hreturns : ∀ t ∈ Sql.tokens .sqlite script.toList, ¬Sql.HasReturn t.text)
    (hclass : ∀ sql ∈ texts, ∃ c, Statement.classify sql = .ok c)
    (hsend : texts.mapM sendStatement db = .ok replies db') :
    readLines script.toUTF8.toList = (ls.map String.ofList, true) ∧
      performAll (steps (ls.map String.ofList)) s =
        ((printedAll replies).map .output, s.withDatabase ⟨db', sent ++ texts⟩) ∧
      ∀ files vars source settings controller replies db,
        Settings.load files vars = .ok settings → openWith settings = .ok controller →
          settings.autoCommit ≠ some false → source.bytes files = .ok script.toUTF8 →
          texts.mapM sendStatement ({} : Store) = .ok replies db →
          program files vars source = ⟨(printedAll replies).map .output, 0⟩ := by
  have hread : readLines script.toUTF8.toList = (ls.map String.ofList, true) := by
    rw [toList_toUTF8]
    exact readLines_of_lines hlines
  obtain ⟨pieces, hsteps, hpieces, rfl⟩ := exists_pieces hlines hstops hreturns hsplit
  refine ⟨hread, ?_, fun _ _ _ _ _ _ _ hload hopen hon hsource hsend =>
    program_of_pieces hload hopen hon hsource hread hsteps hpieces hclass hsend⟩
  have hsent := sendAll_tapped hsend sent
  rw [← hdatabase] at hsent
  rw [← hkind, ← hsplitter] at hpieces
  rw [hsteps]
  exact performAll_pieces hmode hpieces hclass hsent

/-- A fresh session in auto-commit over an empty database. -/
def fresh : Session (Connection (Tapped Store)) :=
  ⟨⟨{ database := ⟨{}, []⟩, kind := .sqlite }, true, true⟩, .sqlite, [], Sql.Script.split⟩

/-- Lines with carriage returns, a statement on two of them, a semicolon at the end of a comment, and
a last line without an end. -/
theorem sends_split_lines :
    let script := "CREATE TABLE t (a INTEGER);\r\nINSERT INTO t\r\n  VALUES (1), (2);\r\n" ++
      "-- all of them;\r\nSELECT count(*) FROM t"
    let lines := ["CREATE TABLE t (a INTEGER);", "INSERT INTO t", "  VALUES (1), (2);",
      "-- all of them;", "SELECT count(*) FROM t"]
    let texts := ["CREATE TABLE t (a INTEGER)", "INSERT INTO t VALUES (1), (2)",
      "SELECT count(*) FROM t"]
    Sql.Script.split .sqlite script = .ok texts ∧ readLines script.toUTF8.toList = (lines, true) ∧
      (performAll (steps lines) fresh).2.controller.delegate.database.sent = texts ∧
      program (fun _ => .error .notFound) {} (.input script.toUTF8) =
        ⟨[.output "0 row(s) affected", .output "2 row(s) affected",
          .output "\x7b\"count(*)\":2\x7d"], 0⟩ := by
  intro script lines texts
  have hsplit : Sql.Script.split .sqlite script = .ok texts :=
    Sql.printed?_of_split.2 (by decide +kernel)
  have hlines : Lines script.toList (lines.map String.toList) := by
    have htext : script.toList = "CREATE TABLE t (a INTEGER);".toList ++ '\r' :: '\n' ::
        ("INSERT INTO t".toList ++ '\r' :: '\n' :: ("  VALUES (1), (2);".toList ++ '\r' :: '\n' ::
          ("-- all of them;".toList ++ '\r' :: '\n' :: "SELECT count(*) FROM t".toList))) := by
      simp [script]
    rw [htext]
    refine .returnFeed (by decide) (.returnFeed (by decide) (.returnFeed (by decide) ?_))
    exact .returnFeed (by decide) (.last (by decide) (by decide))
  have hsame : (lines.map String.toList).map String.ofList = lines := by simp [lines]
  have hclass : ∀ sql ∈ texts, ∃ c, Statement.classify sql = .ok c := by
    simp only [texts, List.forall_mem_cons]
    exact ⟨⟨_, rfl⟩, ⟨_, rfl⟩, ⟨_, rfl⟩, nofun⟩
  obtain ⟨replies, db, hsend, hprinted⟩ : ∃ replies db,
      texts.mapM sendStatement ({} : Store) = .ok replies db ∧
        printedAll replies = ["0 row(s) affected", "2 row(s) affected", "\x7b\"count(*)\":2\x7d"] :=
    exists_ok_of_answer (by decide +kernel)
  obtain ⟨hread, hperform, hprogram⟩ := script_sends_split (s := fresh) rfl rfl ⟨rfl, rfl⟩ rfl hsplit hlines
    (by decide +kernel) (by decide +kernel) hclass hsend
  rw [hsame] at hread hperform
  refine ⟨hsplit, hread, by rw [hperform]; rfl, ?_⟩
  have hend := hprogram (fun _ => .error .notFound) {} (.input script.toUTF8) {} _ _ _ rfl rfl nofun
    rfl hsend
  rw [hend, hprinted]
  rfl

/-- A script that is split into statements that succeed, with no line for a meta command, and something
else is sent in their place. -/
structure SendsOther (script : String) (texts sent : List String) : Prop where
  split : Sql.Script.split .sqlite script = .ok texts
  succeeds : ∃ replies db, texts.mapM sendStatement ({} : Store) = .ok replies db
  noCommand : ∀ line ∈ (readLines script.toUTF8.toList).1, (Text.trim line.toList).head? ≠ some '\\'
  sends : (performAll (steps (readLines script.toUTF8.toList).1) fresh).2.controller.delegate.database.sent =
    sent
  differs : sent ≠ texts

theorem SendsOther.of_eval {script : String} {texts sent : List String}
    (h : Sql.printed? .sqlite (Sql.tokens .sqlite script.toList) = some texts ∧
      ((answerOf (texts.mapM sendStatement ({} : Store))).toOption.map fun _ => ()) = some () ∧
      (∀ line ∈ (readLines script.toUTF8.toList).1, (Text.trim line.toList).head? ≠ some '\\') ∧
      (performAll (steps (readLines script.toUTF8.toList).1) fresh).2.controller.delegate.database.sent =
        sent ∧ sent ≠ texts) : SendsOther script texts sent := by
  obtain ⟨hsplit, hdone, hnone, hsent, hne⟩ := h
  obtain ⟨replies, db, hsend, -⟩ := exists_ok_of_answer hdone
  exact ⟨Sql.printed?_of_split.2 hsplit, ⟨replies, db, hsend⟩, hnone, hsent, hne⟩

/-- A statement is cut behind a comment that ends in a semicolon. A literal over two lines is refused.
A carriage return in a name is lost with the end of its line. The word `END` ends what is split, but
not the script. -/
theorem sends_other_texts :
    SendsOther "SELECT 1 -- one;\n, 2;\n" ["SELECT 1, 2"] ["SELECT 1", ", 2;\n"] ∧
      SendsOther "SELECT 'a\nb';\n" ["SELECT 'a\nb'"] [] ∧
      SendsOther "SELECT 1 AS [a\r\nb];\n" ["SELECT 1 AS [a\r\nb]"] ["SELECT 1 AS [a\nb]"] ∧
      SendsOther "SELECT 1 END;\nSELECT 2;\n" ["SELECT 1"] ["SELECT 1", "SELECT 2"] :=
  ⟨.of_eval (by decide +kernel), .of_eval (by decide +kernel), .of_eval (by decide +kernel),
    .of_eval (by decide +kernel)⟩

end Session
end DeferredTx.Shell
