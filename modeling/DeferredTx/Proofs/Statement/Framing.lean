import DeferredTx.Proofs.Statement.Finish
import DeferredTx.Proofs.Statement.FirstWord
import DeferredTx.Proofs.Statement.Seam

/-!
# What stands around a statement

* `Filler`: blanks and comments, one after another, each comment ended.
* `Trailing`: the same, but for a last line comment that the text ends in.
* `classify_framed`: **classifying ignores what stands around a statement**, and one semicolon behind it.
-/

namespace DeferredTx.Statement

open Text

/-- Blanks and comments, one after another; every comment is ended. -/
inductive Filler : List Char → Prop where
  | nil : Filler []
  | blank {c : Char} {s : List Char} (hc : isBlank c = true) (h : Filler s) : Filler (c :: s)
  | block {body s : List Char} (hbody : ¬ ['*', '/'] <:+: body) (h : Filler s) :
      Filler ('/' :: '*' :: (body ++ '*' :: '/' :: s))
  | line {opening body s : List Char} (ho : opening ∈ lineOpenings) (hbody : '\n' ∉ body)
      (h : Filler s) : Filler (opening ++ body ++ '\n' :: s)

/-- Blanks and comments up to the end of a text, which may end in a line comment. -/
def Trailing (s : List Char) : Prop :=
  Filler s ∨ ∃ filler opening body, Filler filler ∧ opening ∈ lineOpenings ∧ '\n' ∉ body ∧
    s = filler ++ (opening ++ body)

/-- What stands behind a line comment. -/
theorem scan_line {opening : List Char} (ho : opening ∈ lineOpenings) (t : List Char) :
    scan .code (opening ++ t) = scan .code (t.dropWhile (· != '\n')) := by
  have hfront : Front (opening ++ t) (some (_, t.dropWhile (· != '\n'))) := .line ho rfl
  simpa [Piece.kept] using scan_front hfront

theorem dropWhile_line {body : List Char} (h : '\n' ∉ body) (s : List Char) :
    (body ++ s).dropWhile (· != '\n') = s.dropWhile (· != '\n') := by
  refine List.dropWhile_append_of_pos fun c hc => ?_
  rw [bne_iff_ne]
  rintro rfl
  exact h hc

/-- **Blanks and comments leave blanks**, whatever stands behind them. -/
theorem scan_filler {filler : List Char} (h : Filler filler) :
    ∃ blanks, blanks.all isBlank = true ∧
      ∀ s, scan .code (filler ++ s) = (scan .code s).map (blanks ++ ·) := by
  induction h with
  | nil => exact ⟨[], rfl, fun s => by simp⟩
  | @blank c _ hc _ ih =>
    obtain ⟨blanks, hblanks, hscan⟩ := ih
    have hplain : isPlain c = true := isPlain_of hc (by decide)
    refine ⟨c :: blanks, by simp [hc, hblanks], fun s => ?_⟩
    rw [List.cons_append, scan_cons_kept (advance_code_of_isPlain hplain _), hscan, Option.map_map]
    rfl
  | block hbody _ ih =>
    obtain ⟨blanks, hblanks, hscan⟩ := ih
    refine ⟨blanks, hblanks, fun s => ?_⟩
    simp only [List.cons_append, List.append_assoc]
    rw [scan_block hbody, hscan]
  | line ho hbody _ ih =>
    obtain ⟨blanks, hblanks, hscan⟩ := ih
    refine ⟨'\n' :: blanks, by simp [hblanks]; decide, fun s => ?_⟩
    simp only [List.cons_append, List.append_assoc]
    rw [scan_line ho, dropWhile_line hbody, List.dropWhile_cons_of_neg (by decide),
      scan_cons_kept rfl, hscan, Option.map_map]
    rfl

theorem scan_trailing {s : List Char} (h : Trailing s) :
    ∃ blanks, blanks.all isBlank = true ∧ scan .code s = some blanks := by
  rcases h with hfiller | ⟨filler, opening, body, hfiller, ho, hbody, rfl⟩
  · obtain ⟨blanks, hblanks, hscan⟩ := scan_filler hfiller
    refine ⟨blanks, hblanks, ?_⟩
    have hend := hscan []
    rw [List.append_nil] at hend
    rw [hend]
    simp [scan, Mode.inLiteral]
  · obtain ⟨blanks, hblanks, hscan⟩ := scan_filler hfiller
    refine ⟨blanks, hblanks, ?_⟩
    have hnone := dropWhile_line hbody []
    rw [List.append_nil] at hnone
    rw [hscan, scan_line ho, hnone]
    simp [scan, Mode.inLiteral]

/-- **Classifying ignores what stands around a statement.** Let the scan of a text end outside of literals
and comments, and what it keeps not end in a semicolon. Then blanks and comments may stand in front of
the text, and blanks, comments and one semicolon behind it, and the outcome is the same; only where there
is no semicolon, a blank has to come first. -/
theorem classify_framed {lead sql stop trail : String} {kept : List Char}
    (hlead : Filler lead.toList) (htrail : Trailing trail.toList)
    (hstop : stop = ";" ∨ stop = "" ∧ ∀ c ∈ trail.toList.head?, isBlank c = true)
    (hsql : reading .code sql.toList [] = some (kept, .code))
    (hend : (trimEnd kept).getLast? ≠ some ';') :
    classify (lead ++ sql ++ stop ++ trail) = classify sql := by
  obtain ⟨front, hfront, hscanFront⟩ := scan_filler hlead
  obtain ⟨behind, hbehind, hscanBehind⟩ := scan_trailing htrail
  have hstops : stop.toList = [';'] ∨ stop.toList = [] := by
    rcases hstop with rfl | ⟨rfl, -⟩
    · exact Or.inl rfl
    · exact Or.inr rfl
  -- what follows the statement completes nothing with its last character
  have hharmless : Harmless (stop.toList ++ trail.toList) := by
    rcases hstop with rfl | ⟨rfl, hblank⟩
    · exact harmless_cons _
    · exact harmless_of (by decide) hblank
  have hstopped : scan .code (stop.toList ++ trail.toList) = some (stop.toList ++ behind) := by
    have hplain : stop.toList.all isPlain = true := by
      rcases hstops with h | h <;> rw [h] <;> decide
    rw [scan_of_plain hplain, hscanBehind]
    rfl
  have hframed : uncommented (lead ++ sql ++ stop ++ trail).toList =
      some (front ++ kept ++ stop.toList ++ behind) := by
    simp only [uncommented, String.toList_append, List.append_assoc]
    rw [hscanFront, scan_closed hsql hharmless, hstopped]
    rfl
  rw [classify_of_uncommented hframed, classify_of_uncommented (uncommented_closed hsql),
    finish_framed hfront hbehind hstops hend]

/-- A semicolon in a literal and one in a comment are not the one that is dropped. -/
theorem update_framed :
    let lead := "/* a **/-- b\n\u3000"
    let sql := "UPDATE t SET a = ';' -- c;\n"
    let trail := "\t/* d */# e"
    let kept := "UPDATE t SET a = ';' \n".toList
    Filler lead.toList ∧ Trailing trail.toList ∧ reading .code sql.toList [] = some (kept, .code) ∧
      (trimEnd kept).getLast? ≠ some ';' ∧
      classify (lead ++ sql ++ ";" ++ trail) = classify sql ∧
      classify sql = .ok ⟨.update, "UPDATE t SET a = ';'"⟩ := by
  intro lead sql trail kept
  have hblock : ∀ {body : List Char}, body.all (· != '/') = true → ¬ ['*', '/'] <:+: body := by
    intro body hbody hinside
    have hslash : '/' ∈ body := hinside.subset (by simp)
    simpa using List.all_eq_true.1 hbody _ hslash
  have hlead : Filler lead.toList := by
    have htext : lead.toList =
        '/' :: '*' :: ([' ', 'a', ' ', '*'] ++ '*' :: '/' :: ("-- b\n\u3000".toList)) := by
      decide +kernel
    have hline : Filler (['-', '-'] ++ [' ', 'b'] ++ '\n' :: ['\u3000']) :=
      .line (by decide) (by decide) (.blank (by decide) .nil)
    rw [htext]
    exact .block (hblock (by decide)) hline
  have htrail : Trailing trail.toList := by
    have htext : trail.toList = "\t/* d */".toList ++ (['#'] ++ [' ', 'e']) := by decide +kernel
    have hblocks : "\t/* d */".toList = '\t' :: '/' :: '*' :: ([' ', 'd', ' '] ++ ['*', '/']) := by
      decide +kernel
    have hfiller : Filler ('\t' :: '/' :: '*' :: ([' ', 'd', ' '] ++ ['*', '/'])) :=
      .blank (by decide) (.block (hblock (by decide)) .nil)
    exact Or.inr ⟨_, _, _, hblocks ▸ hfiller, by decide, by decide, htext⟩
  have hsql : reading .code sql.toList [] = some (kept, .code) := by decide +kernel
  have hend : (trimEnd kept).getLast? ≠ some ';' := by decide +kernel
  exact ⟨hlead, htrail, hsql, hend, classify_framed hlead htrail (Or.inl rfl) hsql hend,
    by decide +kernel⟩

end DeferredTx.Statement
