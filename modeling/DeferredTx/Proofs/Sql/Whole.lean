import DeferredTx.Proofs.Agreement
import DeferredTx.Proofs.Sql.Relaid

/-!
# Texts of complete statements

A text is whole if no statement, literal or comment goes on behind it. What follows such a text is
split on its own.

* `isWhole`: whether statements are complete where a text ends.
* `split_append`: **a script behind a whole one** is split on its own.
* `isWhole_of_append`: what is behind a whole text is whole if both together are.
* `split_of_relaid`: **how lines end does not matter for splitting.**
* `ne_backslash_of_split`: no script that can be split begins with a backslash.
-/

namespace DeferredTx.Sql

open Dialect (sqlite)
open Text (allBlank isBlank)

/-- Whether reading goes on behind the statement in a run of tokens. -/
def goesOn (chunk : List Token) : Bool :=
  match Statement.read sqlite chunk with
  | some (_, t :: _) => !t.isKeyword "END"
  | _ => true

/-- Whether statements are complete where tokens end: none is illegal, none is behind the last
semicolon but the end, and no statement ends the reading by the word `END`. -/
def complete (ts : List Token) : Bool :=
  ts.all (fun t => t.lexeme != .illegal) && ts.dropLast.getLast?.all (fun t => t.lexeme == .stop) &&
    (chunks ts).all goesOn

/-- Whether statements are complete where a text ends. -/
def isWhole (cs : List Char) : Bool :=
  complete (tokens sqlite cs)

section Runs

variable {ts us : List Token}

theorem exists_runs (t : Token) (ts : List Token) : ∃ run more, runs (t :: ts) = run :: more := by
  rw [runs]
  split
  · exact ⟨_, _, rfl⟩
  · split
    · exact ⟨_, _, rfl⟩
    · exact ⟨_, _, rfl⟩

/-- Runs are complete where a semicolon is the last token. -/
theorem runs_append (h : ts.getLast?.all (fun t => t.lexeme == .stop) = true) (us : List Token) :
    runs (ts ++ us) = runs ts ++ runs us := by
  induction ts with
  | nil => rfl
  | cons t ts ih =>
    cases ts with
    | nil =>
      have hstop : t.lexeme = .stop := by simpa using h
      simp [runs, hstop]
    | cons u ts =>
      -- the run that the token belongs to ends within the first part
      have hrest := ih (by simpa using h)
      obtain ⟨run, more, hruns⟩ := exists_runs u ts
      rw [List.cons_append, runs.eq_def, runs.eq_def (t :: u :: ts)]
      simp only [hrest, hruns]
      split <;> rfl

theorem chunks_append (h : ts.getLast?.all (fun t => t.lexeme == .stop) = true) (us : List Token) :
    chunks (ts ++ us) = chunks ts ++ chunks us := by
  unfold chunks
  rw [runs_append h, List.filter_append]

end Runs

theorem readChunks?_append {first more : List (List Token)} {statements : List Statement}
    (hgoes : first.all goesOn = true)
    (h : Script.readChunks? sqlite (first ++ more) = some statements) :
    ∃ a b, Script.readChunks? sqlite first = some a ∧ Script.readChunks? sqlite more = some b ∧
      statements = a ++ b := by
  induction first generalizing statements with
  | nil => exact ⟨[], statements, rfl, h, rfl⟩
  | cons chunk first ih =>
    obtain ⟨hchunk, hfirst⟩ := Bool.and_eq_true_iff.1 hgoes
    -- the reading goes on behind a semicolon, and not behind `END`, which is excluded
    rw [List.cons_append, Script.readChunks?] at h
    split at h
    · rename_i s t rest hread
      simp only [goesOn, hread] at hchunk
      split at h
      · rename_i hstop
        obtain ⟨later, hlater, rfl⟩ := Option.map_eq_some_iff.1 h
        obtain ⟨a, b, ha, hb, rfl⟩ := ih hfirst hlater
        refine ⟨s :: a, b, ?_, hb, rfl⟩
        rw [Script.readChunks?, hread]
        simp only [hstop, if_true, ha, Option.map_some]
      · split at h
        · rename_i hend
          simp [hend] at hchunk
        · cases h
    · cases h

theorem printed?_append {ts us : List Token} {texts : List String}
    (hended : ts.getLast?.all (fun t => t.lexeme == .stop) = true)
    (hgoes : (chunks ts).all goesOn = true) (h : printed? sqlite (ts ++ us) = some texts) :
    ∃ a b, printed? sqlite ts = some a ∧ printed? sqlite us = some b ∧ texts = a ++ b := by
  unfold printed? at h
  rw [List.any_append, chunks_append hended] at h
  split at h
  · cases h
  · rename_i hlegal
    simp only [Bool.or_eq_true, not_or] at hlegal
    obtain ⟨statements, hread, rfl⟩ := Option.map_eq_some_iff.1 h
    obtain ⟨a, b, ha, hb, rfl⟩ := readChunks?_append hgoes hread
    refine ⟨a.map Statement.render, b.map Statement.render, ?_, ?_, List.map_append⟩
    · rw [printed?, if_neg hlegal.1, ha, Option.map_some]
    · rw [printed?, if_neg hlegal.2, hb, Option.map_some]

/-- The end of a text is not printed. -/
theorem printed?_end {ts : List Token} (hended : ts.getLast?.all (fun t => t.lexeme == .stop) = true)
    (gap text : List Char) : printed? sqlite (ts ++ [⟨.stop, gap, text⟩]) = printed? sqlite ts := by
  unfold printed?
  rw [chunks_append hended, List.any_append]
  simp [chunks, runs]

theorem printed?_of_split {kind : DatabaseKind} {script : String} {texts : List String} :
    Script.split kind script = .ok texts ↔
      printed? (.ofKind kind) (tokens (.ofKind kind) script.toList) = some texts := by
  rw [split_eq]
  cases printed? (.ofKind kind) (tokens (.ofKind kind) script.toList) <;> simp

/-- What a whole text is made of. -/
theorem exists_of_isWhole {front : List Char} (hlast : front.getLast? = some '\n')
    (hwhole : isWhole front = true) (more : List Char) :
    ∃ ts gap, tokens sqlite front = ts ++ [⟨.stop, gap, []⟩] ∧
      SameLexemes (tokens sqlite (front ++ more)) (ts ++ tokens sqlite more) ∧
      ts.getLast?.all (fun t => t.lexeme == .stop) = true ∧ (chunks ts).all goesOn = true := by
  simp only [isWhole, complete, Bool.and_eq_true] at hwhole
  obtain ⟨⟨hlegal, hended⟩, hgoes⟩ := hwhole
  obtain ⟨ts, gap, hts, hsame⟩ := tokens_append hlast (by simpa using hlegal) more
  rw [hts, List.dropLast_concat] at hended
  rw [hts, chunks_append hended, List.all_append, Bool.and_eq_true] at hgoes
  exact ⟨ts, gap, hts, hsame, hended, hgoes.1⟩

/-- **A script behind a whole one is split on its own.** -/
theorem split_append {front more : List Char} {texts : List String} (hlast : front.getLast? = some '\n')
    (hwhole : isWhole front = true)
    (h : Script.split .sqlite (String.ofList (front ++ more)) = .ok texts) :
    ∃ a b, Script.split .sqlite (String.ofList front) = .ok a ∧
      Script.split .sqlite (String.ofList more) = .ok b ∧ texts = a ++ b := by
  obtain ⟨ts, gap, hts, hsame, hended, hgoes⟩ := exists_of_isWhole hlast hwhole more
  simp only [printed?_of_split, String.toList_ofList, Dialect.ofKind] at h ⊢
  rw [printed?_of_sameLexemes _ hsame] at h
  rw [hts, printed?_end hended]
  exact printed?_append hended hgoes h

theorem goesOn_bare (chunk : List Token) : goesOn (chunk.map Token.bare) = goesOn chunk := by
  have hread := Statement.alike_read sqlite _ chunk (sameLexemes_bare chunk)
  unfold goesOn
  rcases Reader.cases_of_seen hread with ⟨h, h'⟩ | ⟨s, s', ts, us, h, h', -, hsame⟩
  · rw [h, h']
  · rw [h, h']
    cases ts with
    | nil =>
      obtain rfl : us = [] := by simpa [SameLexemes] using hsame.symm
      rfl
    | cons t ts =>
      obtain ⟨u, us', rfl, hlexeme, -⟩ := hsame.exists_cons
      simp only [Token.isKeyword, hlexeme]

theorem complete_of_sameLexemes {ts us : List Token} (h : SameLexemes ts us) :
    complete ts = complete us := by
  have hbare : ∀ ts : List Token, complete (ts.map Token.bare) = complete ts := by
    intro ts
    unfold complete
    rw [chunks_bare, List.all_map, List.all_map, ← List.map_dropLast, List.getLast?_map, Option.all_map]
    simp only [Function.comp_def, bare_lexeme, goesOn_bare]
  rw [← hbare ts, ← hbare us, h.bare_eq]

/-- A text has a token at its end at least. -/
theorem tokens_ne_nil (d : Dialect) (cs : List Char) : tokens d cs ≠ [] := by
  fun_cases tokens d cs with
  | case1 hgap => exact List.cons_ne_nil _ _
  | case2 n hgap hend => exact List.cons_ne_nil _ _
  | case3 n hgap c rest hcut => exact List.cons_ne_nil _ _
  | case4 n hgap c rest hcut l taken hlexeme hl => exact List.cons_ne_nil _ _

/-- **What is behind a whole text is whole** if both together are. -/
theorem isWhole_of_append {front more : List Char} (hlast : front.getLast? = some '\n')
    (hfront : isWhole front = true) (h : isWhole (front ++ more) = true) : isWhole more = true := by
  obtain ⟨ts, gap, hts, hsame, hended, -⟩ := exists_of_isWhole hlast hfront more
  rw [isWhole, complete_of_sameLexemes hsame] at h
  simp only [complete, List.all_append, chunks_append hended,
    List.dropLast_append_of_ne_nil (tokens_ne_nil sqlite more), List.getLast?_append,
    Bool.and_eq_true] at h
  obtain ⟨⟨⟨-, hlegal⟩, hlastStop⟩, -, hgoes⟩ := h
  simp only [isWhole, complete, hlegal, hgoes, Bool.and_true, Bool.true_and]
  cases hend : (tokens sqlite more).dropLast.getLast? with
  | none => rfl
  | some t =>
    rw [hend] at hlastStop
    exact hlastStop

theorem legal_of_split {script : String} {texts : List String}
    (h : Script.split .sqlite script = .ok texts) :
    ∀ t ∈ tokens sqlite script.toList, t.lexeme ≠ .illegal := by
  have hprinted := printed?_of_split.1 h
  intro t ht hillegal
  have hany : ((tokens sqlite script.toList).any fun t => t.lexeme == .illegal) = true :=
    List.any_eq_true.2 ⟨t, ht, by rw [hillegal]; rfl⟩
  rw [printed?, Dialect.ofKind, if_pos hany] at hprinted
  cases hprinted

/-- **How lines end does not matter for splitting**, if no token has lost a carriage return. -/
theorem split_of_relaid {returns : Prop} {a b : List Char} {texts : List String}
    (h : Relaid returns a b)
    (hsplit : Script.split .sqlite (String.ofList a) = .ok texts)
    (hfree : returns → ∀ t ∈ tokens sqlite a, ¬HasReturn t.text) :
    Script.split .sqlite (String.ofList b) = .ok texts := by
  have hlegal := legal_of_split hsplit
  rw [String.toList_ofList] at hlegal
  have hsame := sameLexemes_of_relaid h hlegal hfree
  simp only [printed?_of_split, String.toList_ofList, Dialect.ofKind] at hsplit ⊢
  rwa [← printed?_of_sameLexemes _ hsame]

/-- There is nothing to run in blanks. -/
theorem split_blank {cs : List Char} (h : allBlank cs = true) :
    Script.split .sqlite (String.ofList cs) = .ok [] := by
  have hgap := gap?_blanks_sqlite h (Or.inl rfl)
  have hbehind : behindGap? sqlite cs = some [] := by
    rw [behindGap?, hgap, Option.map_some, List.drop_length]
  have hsame : SameLexemes (tokens sqlite cs) [⟨.stop, [], []⟩] := by
    unfold SameLexemes
    rw [lexemes_tokens, hbehind]
    rfl
  simp only [printed?_of_split, String.toList_ofList, Dialect.ofKind]
  rw [printed?_of_sameLexemes _ hsame]
  rfl

/-- The first token of a script that can be split is a semicolon or a keyword. -/
theorem keyword_of_split {script : String} {texts : List String} {t : Token} {ts : List Token}
    (h : Script.split .sqlite script = .ok texts) (htokens : tokens sqlite script.toList = t :: ts) :
    t.lexeme = .stop ∨ ∃ word, t.isKeyword word = true := by
  by_cases hstop : t.lexeme = .stop
  · exact Or.inl hstop
  · have hprinted := printed?_of_split.1 h
    obtain ⟨run, more, hchunks⟩ := chunks_cons hstop ts
    rw [printed?, Dialect.ofKind, if_neg (by simpa using legal_of_split h), htokens, hchunks,
      Script.readChunks?] at hprinted
    cases hread : Statement.read sqlite (t :: run) with
    | none =>
      rw [hread] at hprinted
      cases hprinted
    | some p =>
      obtain ⟨_, _, word, heq, hkeyword, -⟩ := Statement.opening_of_read hread
      obtain ⟨rfl, -⟩ := List.cons.inj heq
      exact Or.inr ⟨word, hkeyword⟩

/-- **No script that can be split begins with a backslash.** -/
theorem ne_backslash_of_split {blanks rest : List Char} {texts : List String}
    (hblank : allBlank blanks = true) :
    Script.split .sqlite (String.ofList (blanks ++ '\\' :: rest)) ≠ .ok texts := by
  intro h
  have hgap : gap? sqlite .between (blanks ++ '\\' :: rest) = some blanks.length := by
    have hend : gap? sqlite .between ('\\' :: rest) = some 0 :=
      gap?_cons_eq_some.2 (Or.inl ⟨rfl, rfl⟩)
    have hblank' : blanks.all sqlite.isBlank = true := hblank
    rw [gap?_append_blanks hblank', hend, Option.map_some, Nat.zero_add]
  have hlexeme : lexeme sqlite '\\' rest = symbolLexeme sqlite '\\' rest := by
    rw [lexeme_plain (by decide) (by decide) (by simp)]
    rfl
  rw [symbolLexeme_sqlite] at hlexeme
  have htokens := tokens_eq_cons hgap (List.drop_left' rfl) hlexeme nofun
  rw [← String.toList_ofList (l := blanks ++ '\\' :: rest)] at htokens
  rcases keyword_of_split h htokens with hstop | ⟨word, hkeyword⟩
  · cases hstop
  · cases hkeyword

end DeferredTx.Sql
