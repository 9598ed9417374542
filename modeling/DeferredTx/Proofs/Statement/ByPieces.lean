import DeferredTx.Proofs.Statement.FirstWord
import DeferredTx.Proofs.Statement.Piece
import DeferredTx.Proofs.Statement.Reading

/-!
# Cleaning a text piece by piece

The scanner goes through a text character by character and keeps a mode. Each mode is the inside of
one kind of piece, and what is scanned from there on is decided by what belongs to that piece.

* `scan_lineComment`, `scan_blockComment`, `scan_literal`: the rest of a piece from inside it.
* `uncommented_of_reading`: what the scanner keeps is what the pieces keep.
* `Finished`: a text without blanks at its ends and without one semicolon, said without a trimming
  function.
* `clean_by_pieces`: **the cleaned form of a text, by its pieces.**
-/

namespace DeferredTx.Statement

open Text

section Scan

variable {q : Char} {triple : Bool} {s rest : List Char}

/-- One character of a scan. -/
theorem scan_cons {m next : Mode} {c : Char} {kept : Bool} (h : advance m c s = some (kept, next)) :
    scan m (c :: s) = (scan next s).map fun cs => if kept then c :: cs else cs := by
  rw [scan, h]

theorem scan_cons_kept {m next : Mode} {c : Char} (h : advance m c s = some (true, next)) :
    scan m (c :: s) = (scan next s).map (c :: ·) := by
  rw [scan_cons h]
  rfl

theorem scan_cons_dropped {m next : Mode} {c : Char} (h : advance m c s = some (false, next)) :
    scan m (c :: s) = scan next s := by
  rw [scan_cons h]
  exact Option.map_id'

/-- A line comment goes on up to the line feed, which is read outside of it. -/
theorem scan_lineComment (s : List Char) :
    scan .lineComment s = scan .code (s.dropWhile (· != '\n')) := by
  induction s with
  | nil => rfl
  | cons c s ih =>
    by_cases hc : c = '\n'
    · subst hc
      rfl
    · have hstay : advance .lineComment c s = some (false, .lineComment) := if_neg hc
      rw [scan_cons_dropped hstay, ih, List.dropWhile_cons_of_pos (by simpa using hc)]

theorem scan_blockComment {body : List Char} (h : BlockTail s body rest) :
    scan .blockComment s = scan .code rest := by
  induction h with
  | close hs =>
    rw [hs, scan_cons_dropped rfl, scan_cons_dropped rfl]
  | @more c s _ _ hc _ ih =>
    have hstay : advance .blockComment c s = some (false, .blockComment) := by
      refine if_neg ?_
      rintro ⟨rfl, hslash⟩
      obtain ⟨t, rfl⟩ := List.head?_eq_some_iff.1 hslash
      exact hc ⟨t, rfl⟩
    rw [scan_cons_dropped hstay, ih]
  | ended => rfl

theorem not_isLineBreak_of_mayHold {c : Char} (h : mayHold triple c = true) :
    (isLineBreak c && !triple) = false := by
  cases triple <;> simp_all [mayHold]

/-- The quotes that close a literal end it. -/
theorem scan_quotes (hq : isQuote q = true) (rest : List Char) :
    scan (.literal q triple false) (quotes q triple ++ rest) =
      (scan .code rest).map (quotes q triple ++ ·) := by
  obtain ⟨hsymbol, hmay⟩ := isSymbol_of_isQuote hq triple
  have hback : q ≠ '\\' := by
    cases hsymbol
    assumption
  have hline := not_isLineBreak_of_mayHold hmay
  cases triple with
  | false =>
    have hclose : advance (.literal q false false) q rest = some (true, .code) := by
      simp only [advance, hline, Bool.false_eq_true, if_false, if_neg hback]
      rfl
    exact scan_cons_kept hclose
  | true =>
    have hclose : advance (.literal q true false) q (q :: q :: rest) =
        some (true, .tripleClosing 1) := by
      simp only [advance, hline, Bool.false_eq_true, if_false, if_neg hback]
      simp
    simp only [quotes, if_true, List.cons_append, List.nil_append]
    rw [scan_cons_kept hclose, scan_cons_kept rfl, scan_cons_kept rfl]
    simp only [Option.map_map, Function.comp_def]

/-- A symbol of a literal that does not close it is kept. -/
theorem scan_symbol {x t : List Char} (hx : IsSymbol x) (hopen : ¬ quotes q triple <+: x ++ t)
    (hmay : x.all (mayHold triple) = true) :
    scan (.literal q triple false) (x ++ t) =
      (scan (.literal q triple false) t).map (x ++ ·) := by
  cases hx with
  | @bare c hc =>
    have hline : (isLineBreak c && !triple) = false :=
      not_isLineBreak_of_mayHold (by simpa using hmay)
    have hstay : advance (.literal q triple false) c t = some (true, .literal q triple false) := by
      simp only [advance, hline, Bool.false_eq_true, if_false, if_neg hc]
      split
      · -- a quote in triple quotes that has no two more behind it
        rename_i hcq
        subst hcq
        cases triple with
        | false => exact absurd ⟨t, rfl⟩ hopen
        | true =>
          have htwo : t.take 2 ≠ [c, c] := by
            intro htwo
            have ht : t = [c, c] ++ t.drop 2 := by rw [← htwo, List.take_append_drop]
            refine hopen ⟨t.drop 2, ?_⟩
            rw [ht]
            rfl
          simp [htwo]
      · rfl
    exact scan_cons_kept hstay
  | guarded c =>
    have hline : (isLineBreak c && !triple) = false := by
      refine not_isLineBreak_of_mayHold ?_
      simp only [List.all_cons, Bool.and_eq_true] at hmay
      exact hmay.2.1
    have hguard : advance (.literal q triple false) '\\' (c :: t) =
        some (true, .literal q triple true) := by
      cases triple <;> rfl
    have hnext : advance (.literal q triple true) c t = some (true, .literal q triple false) := by
      simp only [advance, hline, Bool.false_eq_true, if_false, if_true]
    simp only [List.cons_append, List.nil_append]
    rw [scan_cons_kept hguard, scan_cons_kept hnext, Option.map_map]
    rfl

/-- A line break that a literal may not hold stops the scan. -/
theorem scan_broken {x t : List Char} (hx : IsSymbol x) (hmay : x.all (mayHold triple) = false) :
    scan (.literal q triple false) (x ++ t) = none := by
  have hbreak : ∀ {c : Char}, mayHold triple c = false → ∀ escaped s,
      advance (.literal q triple escaped) c s = none := by
    intro c hc escaped s
    obtain ⟨rfl, hline⟩ : triple = false ∧ isLineBreak c = true := by
      simpa [mayHold] using hc
    simp [advance, hline]
  cases hx with
  | bare hc =>
    rw [List.cons_append, scan, hbreak (by simpa using hmay)]
  | guarded c =>
    have hback : mayHold triple '\\' = true := by cases triple <;> rfl
    have hguard : advance (.literal q triple false) '\\' (c :: t) =
        some (true, .literal q triple true) := by
      cases triple <;> rfl
    simp only [List.cons_append, List.nil_append]
    rw [scan_cons_kept hguard, scan, hbreak (by simpa [hback] using hmay)]
    rfl

/-- What is scanned from inside a literal on. -/
theorem scan_literal (hq : isQuote q = true) {r : Option (List Char × List Char)}
    (h : LiteralTail q triple s r) :
    scan (.literal q triple false) s = r.bind fun p => (scan .code p.2).map (p.1 ++ ·) := by
  induction h with
  | close hs => rw [hs, scan_quotes hq, Option.bind_some]
  | symbol hs hx hopen hmay _ ih =>
    subst hs
    rw [scan_symbol hx hopen hmay, ih, Option.map_bind, Option.bind_map]
    simp [Function.comp_def]
  | broken hs hx hmay => rw [hs, scan_broken hx hmay]; rfl
  | ended hs =>
    rcases hs with rfl | rfl
    · rfl
    · cases triple <;> rfl

/-- The quotes that open a literal lead into it. -/
theorem scan_opening (hq : isQuote q = true) {t : List Char}
    (hfirst : triple = false → ¬ quotes q true <+: quotes q triple ++ t) :
    scan .code (quotes q triple ++ t) =
      (scan (.literal q triple false) t).map (quotes q triple ++ ·) := by
  cases triple with
  | false =>
    have htwo : t.take 2 ≠ [q, q] := by
      intro htwo
      have ht : t = [q, q] ++ t.drop 2 := by rw [← htwo, List.take_append_drop]
      refine hfirst rfl ⟨t.drop 2, ?_⟩
      rw [ht]
      rfl
    have hopen : advance .code q t = some (true, .literal q false false) := by
      rw [advance_isQuote hq, if_neg htwo]
    exact scan_cons_kept hopen
  | true =>
    have hopen : advance .code q (q :: q :: t) = some (true, .tripleOpening q 1) := by
      rw [advance_isQuote hq]
      exact if_pos rfl
    simp only [quotes, if_true, List.cons_append, List.nil_append]
    rw [scan_cons_kept hopen, scan_cons_kept rfl, scan_cons_kept rfl]
    simp only [Option.map_map, Function.comp_def]

/-- What is scanned of the piece at the front of a text. -/
theorem scan_front {r : Option (Piece × List Char)} (h : Front s r) :
    scan .code s = r.bind fun p => (scan .code p.2).map (p.1.kept ++ ·) := by
  cases h with
  | @line _ _ t ho hs =>
    simp only [lineOpenings, List.mem_cons, List.not_mem_nil, or_false] at ho
    have hdrop : scan .code s = scan .lineComment t := by
      rcases ho with rfl | rfl
      · rw [hs, List.cons_append, scan_cons_dropped rfl]
        rfl
      · rw [hs, List.cons_append, scan_cons_dropped rfl, List.cons_append, scan_cons_dropped rfl]
        rfl
    rw [hdrop, scan_lineComment]
    simp [Piece.kept]
  | @block _ t _ _ hs h =>
    have hopen : scan .code s = scan .blockComment t := by
      rw [hs, List.cons_append, scan_cons_dropped rfl, List.cons_append, scan_cons_dropped rfl]
      rfl
    rw [hopen, scan_blockComment h]
    simp [Piece.kept]
  | literal hq hs hfirst h =>
    subst hs
    rw [scan_opening hq hfirst, scan_literal hq h, Option.map_bind, Option.bind_map]
    simp [Piece.kept, Function.comp_def]
  | @other c t hc =>
    have hline : ¬ (c = '#' ∨ c = '-' ∧ t.head? = some '-') := by
      rintro (rfl | ⟨rfl, hnext⟩)
      · exact hc (Or.inl ⟨['#'], .head _, t, rfl⟩)
      · obtain ⟨u, rfl⟩ := List.head?_eq_some_iff.1 hnext
        exact hc (Or.inl ⟨['-', '-'], .tail _ (.head _), u, rfl⟩)
    have hblock : ¬ (c = '/' ∧ t.head? = some '*') := by
      rintro ⟨rfl, hnext⟩
      obtain ⟨u, rfl⟩ := List.head?_eq_some_iff.1 hnext
      exact hc (Or.inr (Or.inl ⟨u, rfl⟩))
    have hquote : ¬ isQuote c = true := fun hq => hc (Or.inr (Or.inr ⟨c, hq, t, rfl⟩))
    have hstay : advance .code c t = some (true, .code) := by
      simp only [advance, if_neg hline, if_neg hblock, if_neg hquote]
    exact scan_cons_kept hstay

/-- **The scanner keeps what the pieces keep.** -/
theorem uncommented_of_reading {r : Option (List Piece)} (h : Reading s r) :
    uncommented s = r.map fun pieces => pieces.flatMap Piece.kept := by
  unfold uncommented
  induction h with
  | nil => rfl
  | piece h _ ih =>
    rw [scan_front h, Option.bind_some, ih, Option.map_map, Option.map_map]
    rfl
  | unclosed h => exact scan_front h

end Scan

/-- `t` is what is left of `s` without blanks at its right end. -/
def RightTrimmed (s t : List Char) : Prop :=
  ∃ blanks, s = t ++ blanks ∧ blanks.all isBlank = true ∧ ∀ c ∈ t.getLast?, isBlank c = false

/-- `t` is what is left of `s` without blanks at its left end. -/
def LeftTrimmed (s t : List Char) : Prop :=
  ∃ blanks, s = blanks ++ t ∧ blanks.all isBlank = true ∧ ∀ c ∈ t.head?, isBlank c = false

/-- `t` is what is left of `s` without the semicolon at its end, if there is one. -/
def Unterminated (s t : List Char) : Prop :=
  s = t ++ [';'] ∨ s = t ∧ t.getLast? ≠ some ';'

/-- What is left of `kept` without blanks at its right end, then without one semicolon there, then
without blanks at either end. -/
def Finished (kept out : List Char) : Prop :=
  ∃ front body middle, RightTrimmed kept front ∧ Unterminated front body ∧ LeftTrimmed body middle ∧
    RightTrimmed middle out

/-- What is left of a text behind the characters of a class that it begins with. -/
theorem eq_dropWhile_iff {p : Char → Bool} {s t : List Char} : t = s.dropWhile p ↔
    ∃ front, s = front ++ t ∧ front.all p = true ∧ ∀ c ∈ t.head?, p c = false := by
  constructor
  · rintro rfl
    refine ⟨s.takeWhile p, List.takeWhile_append_dropWhile.symm, List.all_takeWhile, ?_⟩
    intro c hc
    have hhead := List.head?_dropWhile_not p s
    rw [Option.mem_def.1 hc] at hhead
    exact hhead
  · rintro ⟨front, rfl, hfront, hhead⟩
    rw [List.dropWhile_append_of_pos (List.all_eq_true.1 hfront)]
    cases t with
    | nil => rfl
    | cons c t => exact (List.dropWhile_cons_of_neg (by simp [hhead c rfl])).symm

theorem leftTrimmed_iff {s t : List Char} : LeftTrimmed s t ↔ t = s.dropWhile isBlank :=
  eq_dropWhile_iff.symm

/-- The right end of a text is the left end of its reverse. -/
theorem rightTrimmed_iff_reverse {s t : List Char} :
    RightTrimmed s t ↔ LeftTrimmed s.reverse t.reverse := by
  constructor
  · rintro ⟨blanks, rfl, hblank, hlast⟩
    exact ⟨blanks.reverse, List.reverse_append, by rwa [List.all_reverse],
      by rwa [List.head?_reverse]⟩
  · rintro ⟨blanks, hs, hblank, hhead⟩
    refine ⟨blanks.reverse, ?_, by rwa [List.all_reverse], by rwa [← List.head?_reverse]⟩
    rw [← List.reverse_reverse s, hs, List.reverse_append, List.reverse_reverse]

theorem rightTrimmed_iff {s t : List Char} : RightTrimmed s t ↔ t = trimEnd s := by
  rw [rightTrimmed_iff_reverse, leftTrimmed_iff, trimEnd, List.reverse_eq_iff]

theorem unterminated_iff {s t : List Char} : Unterminated s t ↔ t = dropTerminator s := by
  unfold Unterminated dropTerminator
  constructor
  · rintro (rfl | ⟨rfl, hlast⟩)
    · simp
    · rw [if_neg hlast]
  · rintro rfl
    split
    · rename_i hlast
      obtain ⟨body, rfl⟩ := List.getLast?_eq_some_iff.1 hlast
      exact Or.inl (by simp)
    · exact Or.inr ⟨rfl, ‹_›⟩

theorem finished_iff {kept out : List Char} : Finished kept out ↔ out = finish kept := by
  simp only [Finished, rightTrimmed_iff, leftTrimmed_iff, unterminated_iff]
  constructor
  · rintro ⟨_, _, _, rfl, rfl, rfl, rfl⟩
    rfl
  · rintro rfl
    exact ⟨_, _, _, rfl, rfl, rfl, rfl⟩

/-- What cleaning makes of a reading. -/
theorem clean_of_reading {sql : String} {r : Option (List Piece)} (h : Reading sql.toList r) :
    clean sql = r.elim (.error (.unclosedLiteral sql)) fun pieces =>
      .ok (String.ofList (finish (pieces.flatMap Piece.kept))) := by
  unfold clean clean?
  rw [uncommented_of_reading h]
  cases r <;> rfl

/-- **Cleaning follows the pieces of a text.** Every text has exactly one reading. If it has a literal
that is not closed, cleaning fails with the text in its error; otherwise what is left are its pieces
without the comments, in order and as they were written, trimmed at the right end, without one semicolon
there, and trimmed at both ends. -/
theorem clean_by_pieces (sql : String) :
    (∃ r, Reading sql.toList r ∧ ∀ r', Reading sql.toList r' → r' = r) ∧
    (∀ pieces, Reading sql.toList (some pieces) → sql.toList = pieces.flatMap Piece.text) ∧
    (∀ e, clean sql = .error e ↔
      e = .unclosedLiteral sql ∧ e.kind = .malformedStatement ∧ Reading sql.toList none) ∧
    ∀ out, clean sql = .ok out ↔
      ∃ pieces, Reading sql.toList (some pieces) ∧
        Finished (pieces.flatMap Piece.kept) out.toList := by
  refine ⟨existsUnique_reading _, fun pieces h => h.text_eq pieces rfl, fun e => ⟨?_, ?_⟩,
    fun out => ⟨?_, ?_⟩⟩
  · intro he
    obtain ⟨r, hr, -⟩ := existsUnique_reading sql.toList
    rw [clean_of_reading hr] at he
    cases r with
    | none =>
      cases he
      exact ⟨rfl, rfl, hr⟩
    | some pieces => cases he
  · rintro ⟨rfl, -, hr⟩
    exact clean_of_reading hr
  · intro hout
    obtain ⟨r, hr, -⟩ := existsUnique_reading sql.toList
    rw [clean_of_reading hr] at hout
    cases r with
    | none => cases hout
    | some pieces =>
      cases hout
      exact ⟨pieces, hr, finished_iff.2 String.toList_ofList⟩
  · rintro ⟨pieces, hr, hout⟩
    rw [clean_of_reading hr, Option.elim_some, ← finished_iff.1 hout, String.ofList_toList]

end DeferredTx.Statement
