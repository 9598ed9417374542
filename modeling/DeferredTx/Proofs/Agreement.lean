import DeferredTx.Proofs.Session.Forward
import DeferredTx.Proofs.Sql.Alike
import DeferredTx.Proofs.Sql.FirstKeyword
import DeferredTx.Sql.Script

/-!
# The scanner agrees with the dialects

A script of one statement is split by its dialect, and classified by the scanner, which knows no
dialect. Both go by the first word of the statement.

* `opensAlike`: whether the scanner finds that word for itself.
* `beginsWith_of_read?`: the token that a script of one statement begins with.
* `exists_classified`: a text whose literals the scanner closes is classified.
* `kind_of_classified`: the kind that it then has.
* `classify_of_split`: **the two agree**, and a write is forwarded outside auto-commit.
-/

namespace DeferredTx.Sql

open Session (Controller Delegate LawfulDelegate Op)
open DeferredTx.Statement (Kind uncommented isPlain blankBefore scan_of_blankBefore scan_of_plain
  finish finish_append head_finish kindOf exists_kindOf classify classify_eq_ok_iff isWrite)
open Text

variable {d : Dialect} {sql : String} {s : Statement} {t : Token} {ts : List Token}

/-- Whether the scanner finds the first word of a statement of some kind at the start of a text: no
semicolon stands in front of it, and a blank behind it. A statement of no kind needs no blank. -/
def opensAlike (d : Dialect) (kind : Kind) : List Token → Bool
  | [] => false
  | t :: ts => t.lexeme != .stop && t.gapAlike d (Token.textOf ts) &&
      (decide (kind = .unknown) || setOff (Token.textOf ts))

theorem chunks_cons (h : t.lexeme ≠ .stop) (ts : List Token) :
    ∃ run more, chunks (t :: ts) = (t :: run) :: more := by
  unfold chunks runs
  rw [if_neg h]
  cases runs ts with
  | nil => exact ⟨[], [], by simp [h]⟩
  | cons run more => exact ⟨run, _, List.filter_cons_of_pos (by simp [h])⟩

theorem split_eq_ok_iff {kind : DatabaseKind} {texts : List String} :
    Script.split kind sql = .ok texts ↔
      (Script.read? (.ofKind kind) sql).map (·.map Statement.render) = some texts := by
  unfold Script.split
  cases Script.read? (.ofKind kind) sql <;> simp

/-- A script that is split into one text is one statement. -/
theorem exists_of_split {kind : DatabaseKind} {text : String}
    (h : Script.split kind sql = .ok [text]) :
    ∃ s, Script.read? (.ofKind kind) sql = some [s] ∧ s.render = text := by
  obtain ⟨statements, hread, htexts⟩ := Option.map_eq_some_iff.1 (split_eq_ok_iff.1 h)
  obtain ⟨s, rfl, hrender⟩ := List.map_eq_singleton_iff.1 htexts
  exact ⟨s, hread, hrender⟩

theorem toList_of_tokens (h : tokens d sql.toList = t :: ts) :
    sql.toList = t.gap ++ t.text ++ Token.textOf ts := by
  rw [← Token.textOf_cons, ← h, Token.textOf_tokens]

/-- A script of one statement has no illegal token, and its first run of tokens is read as that
statement. -/
theorem exists_of_read? (h : Script.read? d sql = some [s]) :
    (∀ t ∈ tokens d sql.toList, t.lexeme ≠ .illegal) ∧ ∃ chunk more rest,
      chunks (tokens d sql.toList) = chunk :: more ∧ Statement.read d chunk = some (s, rest) := by
  unfold Script.read? at h
  simp only at h
  split at h
  · cases h
  rename_i hlegal
  refine ⟨by simpa using hlegal, ?_⟩
  cases hchunks : chunks (tokens d sql.toList) with
  | nil =>
    rw [hchunks] at h
    cases h
  | cons chunk more =>
    rw [hchunks, Script.readChunks?] at h
    split at h
    · rename_i s' t rest hread
      refine ⟨chunk, more, t :: rest, rfl, ?_⟩
      split at h
      · obtain ⟨_, -, heq⟩ := Option.map_eq_some_iff.1 h
        cases heq
        exact hread
      · split at h
        · cases h
          exact hread
        · cases h
    · cases h

/-- A keyword is written as it is, in some case. -/
theorem sameFold_of_isKeyword {rest : List Char} {c : Char} {taken : Nat}
    {word : String} (hlexeme : lexeme d c rest = (t.lexeme, taken))
    (htext : t.text = c :: rest.take (taken - 1)) (hkeyword : t.isKeyword word = true) :
    sameFold t.text word.toList = true := by
  unfold Token.isKeyword at hkeyword
  split at hkeyword
  · rename_i text hword
    have hspelling : t.lexeme.spelling? = some text.toList := by
      rw [hword]
      rfl
    rw [htext, (cut_lexeme hlexeme).text_eq hspelling]
    exact hkeyword
  · cases hkeyword

/-- What the script of a statement begins with: a semicolon, or the keyword of the statement. -/
structure BeginsWith (d : Dialect) (s : Statement) (t : Token) (after : List Char) : Prop where
  gap : t.gapAlike d after = true → blankBefore t.gap (t.text ++ after) = true
  stop : t.lexeme = .stop → t.text = [';']
  keyword : t.lexeme ≠ .stop → ∃ word, (word, s.kind) ∈ openings ∧ sameFold t.text word.toList = true

theorem beginsWith_of_read? (hd : d.IsScript) (h : Script.read? d sql = some [s]) :
    ∃ t ts, tokens d sql.toList = t :: ts ∧ BeginsWith d s t (Token.textOf ts) := by
  obtain ⟨hlegal, chunk, more, rest, hchunks, hread⟩ := exists_of_read? h
  cases htokens : tokens d sql.toList with
  | nil =>
    rw [htokens] at hchunks
    cases hchunks
  | cons t ts =>
    rw [htokens] at hlegal hchunks
    refine ⟨t, ts, rfl, ?_⟩
    rcases head_of_tokens htokens (hlegal t List.mem_cons_self) with
      ⟨hstop, rfl⟩ | ⟨n, c, rest', taken, hgap, hgap', hcut, hlexeme, htext⟩
    · -- a text that is nothing but a gap has no statement
      simp [chunks, runs, hstop] at hchunks
    refine ⟨fun halike => ?_, fun hstop => ?_, fun hstop => ?_⟩
    · obtain ⟨l, gap, text⟩ := t
      obtain rfl : gap = _ := hgap'
      exact blankBefore_of_gapAlike hd hgap hcut halike
    · rw [hstop] at hlexeme
      rw [htext, (cut_lexeme hlexeme).text_eq rfl]
    · obtain ⟨run, more', hrun⟩ := chunks_cons hstop ts
      obtain ⟨rfl, -⟩ := List.cons.inj (hchunks.symm.trans hrun)
      obtain ⟨_, _, word, heq, hkeyword, hmem⟩ := Statement.opening_of_read hread
      obtain ⟨rfl, -⟩ := List.cons.inj heq
      exact ⟨word, hmem, sameFold_of_isKeyword hlexeme htext hkeyword⟩

namespace BeginsWith

variable {after kept : List Char}

theorem isPlain (h : BeginsWith d s t after) : t.text.all isPlain = true := by
  by_cases hstop : t.lexeme = .stop
  · rw [h.stop hstop]
    decide
  · obtain ⟨word, hmem, hword⟩ := h.keyword hstop
    exact isPlain_of_opening hmem hword

/-- The first token begins with a character that is neither a blank nor an at sign. -/
theorem exists_cons (h : BeginsWith d s t after) :
    ∃ c r, t.text = c :: r ∧ isBlank c = false ∧ c ≠ '@' := by
  by_cases hstop : t.lexeme = .stop
  · exact ⟨';', [], h.stop hstop, by decide, by decide⟩
  · obtain ⟨word, hmem, hword⟩ := h.keyword hstop
    have hsolid := isSolid_of_opening hmem hword
    have hat := ne_at_of_opening hmem hword
    cases htext : t.text with
    | nil => exact absurd htext hsolid.ne_nil
    | cons c r =>
      have hc : c ∈ t.text := by simp [htext]
      exact ⟨c, r, rfl, hsolid.notBlank c hc, hat c hc⟩

/-- What the scanner keeps of a script: blanks, the first token, and what it keeps behind that. -/
theorem kept_eq (h : BeginsWith d s t after) (halike : t.gapAlike d after = true)
    (hkept : uncommented (t.gap ++ t.text ++ after) = some kept) :
    ∃ blanks x, blanks.all isBlank = true ∧ uncommented after = some x ∧
      kept = blanks ++ t.text ++ x := by
  obtain ⟨blanks, hblanks, hscan⟩ := scan_of_blankBefore (h.gap halike)
  rw [scan_of_plain h.isPlain, Option.map_map] at hscan
  rw [List.append_assoc] at hkept
  obtain ⟨x, hx, hjoin⟩ := Option.map_eq_some_iff.1 (hscan.symm.trans hkept)
  exact ⟨blanks, x, hblanks, hx, by simpa using hjoin.symm⟩

/-- A script whose literals the scanner closes is classified. -/
theorem exists_classified (h : BeginsWith d s t after) (halike : t.gapAlike d after = true)
    (hsql : sql.toList = t.gap ++ t.text ++ after) (hkept : uncommented sql.toList = some kept) :
    ∃ c, classify sql = .ok c := by
  obtain ⟨blanks, x, hblanks, -, rfl⟩ := h.kept_eq halike (hsql ▸ hkept)
  obtain ⟨c, r, htext, hblank, hat⟩ := h.exists_cons
  have hhead : (finish (blanks ++ t.text ++ x)).head? ≠ some '@' := by
    intro hsign
    rw [htext, List.append_assoc, List.cons_append] at hsign
    exact hat (head_finish hblanks hblank _ hsign).symm
  obtain ⟨kind, hkind⟩ := exists_kindOf hhead
  exact ⟨⟨kind, _⟩, classify_eq_ok_iff.2 ⟨_, hkept, rfl, hkind⟩⟩

/-- A script is classified as the statement that it is, if the scanner finds its first word. -/
theorem kind_of_classified (h : BeginsWith d s t after) (halike : t.gapAlike d after = true)
    (hsql : sql.toList = t.gap ++ t.text ++ after) (hstop : t.lexeme ≠ .stop)
    (hoff : s.kind = .unknown ∨ setOff after = true) {c : Statement.Classified}
    (hc : classify sql = .ok c) : c.kind = s.kind := by
  obtain ⟨kept, hkept, htext, hkind⟩ := classify_eq_ok_iff.1 hc
  obtain ⟨blanks, x, hblanks, hx, rfl⟩ := h.kept_eq halike (hsql ▸ hkept)
  obtain ⟨word, hmem, hword⟩ := h.keyword hstop
  obtain ⟨y, hprefix, hfinish⟩ := finish_append hblanks (isSolid_of_opening hmem hword) x
  -- cleaning cuts the end of what is kept, so that its beginning is still there
  have hblank : s.kind ≠ .unknown → ∀ e ∈ y.head?, isAsciiBlank e = true := by
    intro hne e he
    have hoff' : x.head?.all isAsciiBlank = true := by
      simpa [setOff, hx] using hoff.resolve_left hne
    obtain ⟨z, rfl⟩ := hprefix
    cases y with
    | nil => cases he
    | cons a y =>
      cases he
      exact hoff'
  rw [htext, hfinish, kindOf_append hmem hword hblank] at hkind
  exact (Except.ok.inj hkind).symm

end BeginsWith

theorem isWrite_of_classified {c : Statement.Classified} (hc : classify sql = .ok c)
    (hkind : c.kind = .update ∨ c.kind = .schemaChange) : isWrite sql = true := by
  rw [isWrite, hc]
  rcases hkind with h | h
  · simp [h]
  · simp [h]

/-- While the caller's mode is off, a write meets the delegate outside auto-commit. -/
theorem write_forwarded_off {δ : Type} [Delegate δ] [LawfulDelegate δ] (hwrite : isWrite sql = true)
    {op : Op} (hop : op.text? = some sql) {c : Controller δ} (hoff : c.autoCommit = false) :
    ∀ x ∈ c.calls op, x.text? ≠ none → x.flag = false := by
  intro x hx hne
  rcases Session.calls_cases op c with hwordless | ⟨text, failure, htext, hpassed⟩
  · exact absurd (hwordless x hx) hne
  · obtain ⟨word, hword⟩ := Option.ne_none_iff_exists'.1 hne
    rw [(hpassed.eq_of_mem hx hword).2]
    have hsuspends : op.suspends = true := Session.suspends_of_write hop hwrite
    simp [Session.Modes.suspended, Controller.modes, hoff, hsuspends]

/-- **The scanner agrees with the dialects.** Let a dialect split a script into exactly one statement.
If the scanner takes all tokens of the script for what they are, it classifies the script. If it does
so, for whatever reason, and finds the first word of the statement for itself, then the kind that it
gives is that of the statement. Then a statement that changes data or schema counts as a write, and
whatever operation passes it on while the caller's mode is off, it meets the delegate outside
auto-commit. -/
theorem classify_of_split {kind : DatabaseKind} {sql text : String}
    (h : Script.split kind sql = .ok [text]) :
    ∃ s, Script.read? (.ofKind kind) sql = some [s] ∧ s.render = text ∧
      (readAlike (.ofKind kind) (tokens (.ofKind kind) sql.toList) = true →
        ∃ c, classify sql = .ok c) ∧
      (opensAlike (.ofKind kind) s.kind (tokens (.ofKind kind) sql.toList) = true →
        ∀ c, classify sql = .ok c → c.kind = s.kind ∧
          (s.kind = .update ∨ s.kind = .schemaChange → isWrite sql = true ∧
            ∀ (δ : Type) [Delegate δ] [LawfulDelegate δ] (op : Op) (c : Controller δ),
              op.text? = some sql → c.autoCommit = false →
              ∀ x ∈ c.calls op, x.text? ≠ none → x.flag = false)) := by
  have hd := isScript_ofKind kind
  obtain ⟨s, hread, hrender⟩ := exists_of_split h
  refine ⟨s, hread, hrender, ?_, ?_⟩
  · intro halike
    obtain ⟨kept, hkept⟩ := uncommented_of_readAlike hd _ (exists_of_read? hread).1 halike
    obtain ⟨t, ts, htokens, hbegins⟩ := beginsWith_of_read? hd hread
    rw [htokens] at halike
    have hgap := (Bool.and_eq_true_iff.1 (Bool.and_eq_true_iff.1 halike).1).1
    exact hbegins.exists_classified hgap (toList_of_tokens htokens) hkept
  · intro hopens c hc
    obtain ⟨t, ts, htokens, hbegins⟩ := beginsWith_of_read? hd hread
    rw [htokens] at hopens
    simp only [opensAlike, Bool.and_eq_true, Bool.or_eq_true, bne_iff_ne, decide_eq_true_eq] at hopens
    obtain ⟨⟨hstop, hgap⟩, hoff⟩ := hopens
    have hkind := hbegins.kind_of_classified hgap (toList_of_tokens htokens) hstop hoff hc
    refine ⟨hkind, fun hwrites => ?_⟩
    have hwrite := isWrite_of_classified hc (hkind ▸ hwrites)
    exact ⟨hwrite, fun δ _ _ op c hop hoff => write_forwarded_off hwrite hop hoff⟩

/-- A comment, a doubled quote and a signed exponent are read alike. -/
theorem insert_read_alike :
    let sql := "/* one row */ INSERT INTO t VALUES ('it''s', -1.5e-3);"
    let c : Controller Session.Recorder :=
      (Session.run Controller.perform [.call (.setAutoCommit false)]
        ⟨{ autoCommit := true }, true, true⟩).2
    let op : Op := .call (.execute sql)
    Script.split .postgres sql = .ok ["INSERT INTO t VALUES ('it''s', -1.5e-3)"] ∧
      readAlike (.ofKind .postgres) (tokens (.ofKind .postgres) sql.toList) = true ∧
      opensAlike (.ofKind .postgres) .update (tokens (.ofKind .postgres) sql.toList) = true ∧
      (∃ c, classify sql = .ok c ∧ c.kind = .update) ∧ isWrite sql = true ∧
      c.autoCommit = false ∧ (∃ x ∈ c.calls op, x.text? ≠ none) ∧
      ∀ x ∈ c.calls op, x.text? ≠ none → x.flag = false := by
  intro sql c op
  have hsplit : Script.split .postgres sql = .ok ["INSERT INTO t VALUES ('it''s', -1.5e-3)"] :=
    split_eq_ok_iff.2 (by decide +kernel)
  have halike : readAlike (.ofKind .postgres) (tokens (.ofKind .postgres) sql.toList) = true := by
    decide +kernel
  have hopens :
      opensAlike (.ofKind .postgres) .update (tokens (.ofKind .postgres) sql.toList) = true := by
    decide +kernel
  obtain ⟨s, hread, -, hok, hkind⟩ := classify_of_split hsplit
  have hupdate :
      (Script.read? (.ofKind .postgres) sql).map (·.map Statement.kind) = some [.update] := by
    decide +kernel
  have hs : s.kind = .update := by simpa [hread] using hupdate
  obtain ⟨classified, hclassified⟩ := hok halike
  obtain ⟨hsame, hwrites⟩ := hkind (hs ▸ hopens) classified hclassified
  obtain ⟨hwrite, hforwarded⟩ := hwrites (Or.inl hs)
  refine ⟨hsplit, halike, hopens, ⟨classified, hclassified, hsame.trans hs⟩, hwrite, rfl, ?_, ?_⟩
  · decide +kernel
  · exact hforwarded _ op c rfl rfl

/-- Writes that the scanner misses: behind a line break in a literal it finds no end of it, a semicolon
or a nested comment in front hides the first word, and a comment behind it does not end it. -/
theorem valid_writes_missed :
    let sql := "INSERT INTO t VALUES ('a\nb')"
    let missed : List (DatabaseKind × String) :=
      [(.sqlite, sql), (.sqlite, "; DELETE FROM t"), (.sqlite, "DELETE/**/FROM t"),
       (.postgres, "/* /* */ a */ DELETE FROM t")]
    Script.split .sqlite sql = .ok [sql] ∧ (∀ c, classify sql ≠ .ok c) ∧
      ∀ p ∈ missed, isWrite p.2 = false ∧
        (Script.read? (.ofKind p.1) p.2).map (·.map Statement.kind) = some [.update] := by
  intro sql missed
  refine ⟨split_eq_ok_iff.2 (by decide +kernel), fun c hc => ?_, by decide +kernel⟩
  obtain ⟨kept, hkept, -⟩ := classify_eq_ok_iff.1 hc
  have hnone : uncommented sql.toList = none := by decide +kernel
  exact absurd (hnone.symm.trans hkept) nofun

end DeferredTx.Sql
