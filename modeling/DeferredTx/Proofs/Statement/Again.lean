import Mathlib.Data.List.Chain
import DeferredTx.Proofs.Statement.Finish
import DeferredTx.Proofs.Statement.Seam

/-!
# Cleaning a cleaned text

What a comment stood between is joined when the comment is taken out, and may then be read as the opening
of another comment or of a literal in triple quotes.

* `Piece.makesComment`, `Piece.makesTriple`: the joints where that happens.
* `scan_eq_self_iff`: nothing is taken out of a text if the scanner is in code behind it and keeps all.
* `clean_eq_self_iff`: a finished text is cleaned already if nothing is taken out of it.
* `scan_pieces_iff`: pieces that are joined are kept as they are if no joint makes a comment.
* `clean_again_iff`: **when cleaning is done once.**
-/

namespace DeferredTx.Statement

open Text

section Whole

variable {m next : Mode} {cs part kept : List Char}

theorem sublist_of_scan (h : scan m cs = some kept) : kept.Sublist cs := by
  induction cs generalizing m kept with
  | nil =>
    rw [scan] at h
    split at h
    · cases h
    · cases h
      exact List.nil_sublist _
  | cons c cs ih =>
    obtain ⟨keep, m', kept', -, hkept, rfl⟩ := scan_cons_eq_some h
    cases keep with
    | true => exact (ih hkept).cons_cons c
    | false => exact (ih hkept).cons c

theorem length_of_reading {after : List Char} (h : reading m part after = some (kept, next)) :
    kept.length ≤ part.length := by
  induction part generalizing m kept with
  | nil =>
    cases h
    exact Nat.le_refl _
  | cons c part ih =>
    obtain ⟨keep, m', kept', -, hkept, rfl⟩ := reading_cons_eq_some h
    have hle := ih hkept
    cases keep with
    | true => exact Nat.succ_le_succ hle
    | false => exact Nat.le_succ_of_le hle

/-- No comment is open behind a character that is kept. -/
theorem inComment_of_advance {c : Char} {rest : List Char}
    (h : advance m c rest = some (true, next)) : next.inComment = false := by
  unfold advance at h
  repeat' split at h
  all_goals cases h
  all_goals rfl

/-- Nor is one open behind a part of which all is kept. -/
theorem inComment_of_reading {after : List Char} (hm : m.inComment = false)
    (h : reading m part after = some (part, next)) : next.inComment = false := by
  induction part generalizing m with
  | nil =>
    cases h
    exact hm
  | cons c part ih =>
    obtain ⟨keep, m', kept', hadvance, hkept, hall⟩ := reading_cons_eq_some h
    cases keep with
    | true =>
      obtain rfl : part = kept' := (List.cons.inj hall).2
      exact ih (inComment_of_advance hadvance) hkept
    | false =>
      obtain rfl : c :: part = kept' := hall
      exact absurd (length_of_reading hkept) (by simp)

/-- In a literal, what does not close it leaves it open. -/
theorem literal_of_reading {q : Char} {triple escaped : Bool} {after : List Char} (hq : q ∉ part)
    (h : reading (.literal q triple escaped) part after = some (kept, next)) :
    ∃ escaped', next = .literal q triple escaped' := by
  induction part generalizing escaped kept with
  | nil =>
    cases h
    exact ⟨escaped, rfl⟩
  | cons c part ih =>
    obtain ⟨hc, hpart⟩ := not_or.1 (List.mem_cons.not.1 hq)
    obtain ⟨keep, m', kept', hadvance, hkept, -⟩ := reading_cons_eq_some h
    have hstay : ∃ escaped', m' = .literal q triple escaped' := by
      simp only [advance, if_neg (Ne.symm hc)] at hadvance
      repeat' split at hadvance
      all_goals cases hadvance
      all_goals exact ⟨_, rfl⟩
    obtain ⟨escaped', rfl⟩ := hstay
    exact ih hpart hkept

/-- **Nothing is taken out of a text** if and only if the scanner keeps all of it and is in code behind
it. -/
theorem scan_eq_self_iff : scan .code cs = some cs ↔ reading .code cs [] = some (cs, .code) := by
  constructor
  · intro h
    have happend := scan_append .code cs []
    rw [List.append_nil, h] at happend
    obtain ⟨⟨kept, m⟩, hread, hend⟩ := Option.bind_eq_some_iff.1 happend.symm
    obtain ⟨rest, hrest, hcs⟩ := Option.map_eq_some_iff.1 hend
    have hcode : Mode.code.Expects cs := trivial
    rw [scan] at hrest
    split at hrest
    · cases hrest
    rename_i hliteral
    cases hrest
    obtain rfl : kept = cs := by simpa using hcs
    have hcomment : m.inComment = false := inComment_of_reading rfl hread
    rcases (hcode.reading hread).cases_outside hcomment with rfl | ⟨q, triple, escaped, rfl, -⟩
    · exact hread
    · exact absurd rfl hliteral
  · exact uncommented_closed

/-- What finishing takes away in front of and behind a text does not matter to that. -/
theorem scan_eq_self_inner {front tail : List Char} (hfront : front.all isBlank = true)
    (htail : tail.all isEdge = true) :
    scan .code (front ++ cs ++ tail) = some (front ++ cs ++ tail) ↔ scan .code cs = some cs := by
  have hplain : ∀ {p : Char → Bool} {l : List Char}, openers.any p = false → l.all p = true →
      l.all isPlain = true := by
    intro p l hp hl
    exact List.all_eq_true.2 fun c hc => isPlain_of (List.all_eq_true.1 hl c hc) hp
  have hplainTail : tail.all isPlain = true := hplain (by decide) htail
  have hharmless : Harmless tail := by
    refine harmless_of (p := isEdge) (by decide) fun n hn => ?_
    exact List.all_eq_true.1 htail n (List.mem_of_head? hn)
  have hback : scan .code (front ++ cs ++ tail) = some (front ++ cs ++ tail) ↔
      scan .code (cs ++ tail) = some (cs ++ tail) := by
    rw [List.append_assoc, scan_of_plain (hplain (by decide) hfront)]
    simp
  rw [hback]
  constructor
  · intro h
    -- what is kept of both parts is kept of each, and a quote is missing to close a literal in the second
    have happend := reading_append .code cs tail []
    rw [scan_eq_self_iff.1 h, List.append_nil] at happend
    obtain ⟨⟨kept, m⟩, hread, hrest⟩ := Option.bind_eq_some_iff.1 happend.symm
    obtain ⟨⟨kept', m'⟩, hread', heq⟩ := Option.map_eq_some_iff.1 hrest
    obtain ⟨hkept, rfl⟩ : kept ++ kept' = cs ++ tail ∧ m' = .code := by simpa using heq
    have hlength : kept.length = cs.length := by
      have hsum := congrArg List.length hkept
      have hle := length_of_reading hread
      have hle' := length_of_reading hread'
      simp only [List.length_append] at hsum
      omega
    obtain ⟨rfl, rfl⟩ := List.append_inj hkept.symm hlength.symm
    have hslash : tail.head? ≠ some '/' := by
      intro hhead
      exact absurd (List.all_eq_true.1 htail _ (List.mem_of_head? hhead)) (by decide)
    have hcode : Mode.code.Expects cs := trivial
    have halone : reading .code cs [] = some (cs, m) := by
      rw [← hread]
      refine (reading_of_seam hcode (fun p _ => completes_of_harmless hharmless p) ?_).symm
      exact fun _ hhead => absurd hhead hslash
    have hcomment : m.inComment = false := inComment_of_reading rfl hread
    rcases (hcode.reading halone).cases_outside hcomment with rfl | ⟨q, triple, escaped, rfl, hq⟩
    · exact scan_eq_self_iff.2 halone
    · have hquote : q ∉ tail := by
        intro hmem
        have hplain : isPlain q = true := List.all_eq_true.1 hplainTail q hmem
        simp [isPlain, hq] at hplain
      obtain ⟨escaped', hopen⟩ := literal_of_reading hquote hread'
      cases hopen
  · intro h
    rw [scan_closed (scan_eq_self_iff.1 h) hharmless]
    have hkept := reading_of_plain hplainTail []
    have htail' : scan .code tail = some tail := uncommented_closed hkept
    rw [htail']
    rfl

/-- **A finished text is cleaned already** if and only if nothing is taken out of it. -/
theorem clean_eq_self_iff {t : String} (h : finish t.toList = t.toList) :
    clean t = .ok t ↔ uncommented t.toList = some t.toList := by
  constructor
  · intro hclean
    obtain ⟨kept, hkept, htext⟩ := clean_eq_ok_iff.1 hclean
    have hout : finish kept = t.toList := by rw [htext, String.toList_ofList]
    -- finishing and taking comments out make a text shorter, if anything
    have hsub : kept.Sublist t.toList := sublist_of_scan hkept
    obtain ⟨front, tail, hparts, -, -⟩ := exists_of_finish kept
    have hlength : kept.length = t.toList.length := by
      have hsum := congrArg List.length hparts
      simp only [List.length_append, hout] at hsum
      have hle := hsub.length_le
      omega
    rw [hkept, hsub.eq_of_length hlength]
  · intro hkept
    rw [clean, clean?, hkept, Option.map_some, h]
    exact congrArg Except.ok String.ofList_toList

end Whole

namespace Piece

/-- Whether a piece is a comment. -/
def isComment : Piece → Bool
  | comment _ => true
  | _ => false

/-- Whether a piece and the text behind it spell what opens a comment. -/
def makesComment : Piece → List Char → Bool
  | other c, n :: _ => c == '-' && n == '-' || c == '/' && n == '*'
  | _, _ => false

/-- Whether a piece is an empty literal that the text behind it makes three quotes of. -/
def makesTriple : Piece → List Char → Bool
  | literal [q, _], n :: _ => n == q
  | _, _ => false

/-- The pieces without the comments. -/
def without (pieces : List Piece) : List Piece :=
  pieces.filter (!·.isComment)

theorem flatMap_kept (pieces : List Piece) : pieces.flatMap kept = (without pieces).flatMap text := by
  induction pieces with
  | nil => rfl
  | cons p pieces ih =>
    rw [List.flatMap_cons, ih]
    cases p <;> rfl

/-- Only the first character behind a piece matters. -/
theorem makes_append {t : List Char} (ht : t ≠ []) (p : Piece) (after : List Char) :
    p.makesComment (t ++ after) = p.makesComment t ∧ p.makesTriple (t ++ after) = p.makesTriple t := by
  obtain ⟨n, t, rfl⟩ := List.exists_cons_of_ne_nil ht
  exact ⟨by cases p <;> rfl, by unfold makesTriple; split <;> simp_all⟩

theorem makes_nil (p : Piece) : p.makesComment [] = false ∧ p.makesTriple [] = false :=
  ⟨by cases p <;> rfl, by unfold makesTriple; split <;> simp_all⟩

end Piece

section Pieces

variable {q : Char} {triple : Bool} {s rest rest' body : List Char} {p : Piece}

/-- A literal ends with the quotes that close it. -/
theorem LiteralTail.isSuffix {r : Option (List Char × List Char)} (h : LiteralTail q triple s r) :
    ∀ b, r = some b → quotes q triple <:+ b.1 := by
  induction h with
  | close =>
    rintro _ ⟨⟩
    exact List.suffix_rfl
  | symbol _ _ _ _ _ ih =>
    intro b hb
    obtain ⟨b', hb', rfl⟩ := Option.map_eq_some_iff.1 hb
    exact (ih b' hb').trans (List.suffix_append _ _)
  | broken | ended => exact nofun

/-- What belongs to a literal does not depend on what follows it. -/
theorem LiteralTail.again {r : Option (List Char × List Char)} (h : LiteralTail q triple s r)
    (rest' : List Char) : ∀ b, r = some b → LiteralTail q triple (b.1 ++ rest') (some (b.1, rest')) := by
  induction h with
  | close =>
    rintro _ ⟨⟩
    exact .close rfl
  | @symbol s x t r hs hx hopen hmay h ih =>
    intro b hb
    obtain ⟨b', hb', rfl⟩ := Option.map_eq_some_iff.1 hb
    have hinner := ih b' hb'
    have htext : s = x ++ b'.1 ++ b'.2 := by rw [hs, h.text_eq b' hb', List.append_assoc]
    have hstill : ¬ quotes q triple <+: x ++ b'.1 ++ rest' := by
      intro hclose
      have hlength : (quotes q triple).length ≤ (x ++ b'.1).length := by
        have hle := (h.isSuffix b' hb').length_le
        rw [List.length_append]
        omega
      have hinside : quotes q triple <+: x ++ b'.1 :=
        List.prefix_of_prefix_length_le hclose (List.prefix_append _ _) hlength
      exact hopen (htext ▸ hinside.trans (List.prefix_append _ _))
    have hresult := LiteralTail.symbol (List.append_assoc x b'.1 rest') hx hstill hmay hinner
    exact hresult
  | broken | ended => exact nofun

/-- **A piece is read again in front of another text**, unless it makes a comment or three quotes with
that. -/
theorem Front.again (h : Front s (some (p, rest))) (hp : p.isComment = false)
    (hcomment : p.makesComment rest' = false) (htriple : p.makesTriple rest' = false) :
    Front (p.text ++ rest') (some (p, rest')) := by
  generalize hr : some (p, rest) = r at h
  cases h with
  | line =>
    cases hr
    cases hp
  | block =>
    cases hr
    cases hp
  | @literal _ t q triple r hq hs hfirst h =>
    obtain ⟨b, hb, heq⟩ := Option.map_eq_some_iff.1 hr.symm
    cases heq
    have hagain := h.again rest' b hb
    have hplain : triple = false → ¬ quotes q true <+: quotes q triple ++ (b.1 ++ rest') := by
      rintro rfl hthree
      -- a second quote closes the literal, and the third one is behind it
      obtain ⟨u, hu⟩ := hthree
      have htwo : b.1 ++ rest' = q :: q :: u := (List.cons.inj hu).2.symm
      obtain ⟨front, hfront⟩ := h.isSuffix b hb
      have hshort : b.1 = [q] := by
        obtain ⟨d, more, hmore⟩ := List.exists_cons_of_ne_nil (l := b.1) (by simp [← hfront, quotes])
        obtain rfl : d = q := by
          rw [hmore] at htwo
          exact (List.cons.inj htwo).1
        have htext := h.text_eq b hb
        rw [hmore] at htext
        have hclose : LiteralTail d false t (some ([d], more ++ b.2)) := .close htext
        have hsame := hb.symm.trans (h.unique hq hclose)
        rw [Option.some.inj hsame]
      rw [hshort] at htwo
      obtain rfl : rest' = q :: u := (List.cons.inj htwo).2
      simp [Piece.makesTriple, hshort, quotes] at htriple
    have hresult : Front (quotes q triple ++ (b.1 ++ rest')) _ := .literal hq rfl hplain hagain
    rw [Piece.text, List.append_assoc]
    exact hresult
  | @other c s hc =>
    cases hr
    refine .other ?_
    rintro (⟨o, ho, u, hu⟩ | ⟨u, hu⟩ | ⟨q, hq, u, hu⟩)
    · simp only [lineOpenings, List.mem_cons, List.not_mem_nil, or_false] at ho
      rcases ho with rfl | rfl
      · obtain rfl := (List.cons.inj hu).1
        exact hc (Or.inl ⟨['#'], .head _, _, rfl⟩)
      · obtain ⟨rfl, rfl⟩ := List.cons.inj hu
        simp [Piece.makesComment] at hcomment
    · obtain ⟨rfl, rfl⟩ := List.cons.inj hu
      simp [Piece.makesComment] at hcomment
    · obtain rfl := (List.cons.inj hu).1
      exact hc (Or.inr (Or.inr ⟨q, hq, _, rfl⟩))

/-- What is kept of a piece in front of another text. -/
theorem scan_piece (h : Front s (some (p, rest))) (hp : p.isComment = false)
    (hcomment : p.makesComment rest' = false) (htriple : p.makesTriple rest' = false) :
    scan .code (p.text ++ rest') = (scan .code rest').map (p.text ++ ·) := by
  have hkept : p.kept = p.text := by
    cases p with
    | comment => cases hp
    | literal | other => rfl
  rw [scan_front (h.again hp hcomment htriple), Option.bind_some, hkept]

/-- Where a comment is made, something is taken out. -/
theorem scan_of_makesComment (h : p.makesComment rest' = true) :
    scan .code (p.text ++ rest') ≠ some (p.text ++ rest') := by
  intro hself
  have hdrop : ∀ {c d : Char} {u : List Char} {m : Mode}, advance .code c (d :: u) = some (false, m) →
      scan .code (c :: d :: u) ≠ some (c :: d :: u) := by
    intro c d u m hadvance hkept
    rw [scan_cons_dropped hadvance] at hkept
    exact absurd (sublist_of_scan hkept).length_le (by simp)
  unfold Piece.makesComment at h
  split at h
  · rename_i c n u
    simp only [Bool.or_eq_true, Bool.and_eq_true, beq_iff_eq] at h
    rcases h with ⟨rfl, rfl⟩ | ⟨rfl, rfl⟩
    · exact hdrop rfl hself
    · exact hdrop rfl hself
  · cases h

/-- A piece that some text begins with, and that is no comment. -/
def Sound (p : Piece) : Prop :=
  p.isComment = false ∧ ∃ s rest, Front s (some (p, rest))

theorem sound_of_reading {r : Option (List Piece)} (h : Reading s r) :
    ∀ pieces, r = some pieces → ∀ p ∈ Piece.without pieces, Sound p := by
  induction h with
  | nil =>
    rintro _ ⟨⟩ p hp
    cases hp
  | @piece s rest p r h _ ih =>
    intro pieces hpieces x hx
    obtain ⟨pieces', hr, rfl⟩ := Option.map_eq_some_iff.1 hpieces
    obtain ⟨hmem, hcomment⟩ := List.mem_filter.1 hx
    rcases List.mem_cons.1 hmem with rfl | hmem
    · exact ⟨by simpa using hcomment, s, rest, h⟩
    · exact ih pieces' hr x (List.mem_filter.2 ⟨hmem, hcomment⟩)
  | unclosed => exact nofun

/-- **Pieces that are joined are kept as they are** if and only if no joint makes a comment, provided that
none makes three quotes. -/
theorem scan_pieces_iff {pieces : List Piece} (hsound : ∀ p ∈ pieces, Sound p)
    (htriple : pieces.IsChain fun p n => p.makesTriple n.text = false) :
    scan .code (pieces.flatMap Piece.text) = some (pieces.flatMap Piece.text) ↔
      pieces.IsChain fun p n => p.makesComment n.text = false := by
  induction pieces with
  | nil => exact iff_of_true rfl .nil
  | cons p pieces ih =>
    obtain ⟨⟨hp, s, rest, hfront⟩, hsounds⟩ := List.forall_mem_cons.1 hsound
    cases pieces with
    | nil =>
      have hscan := scan_piece hfront hp p.makes_nil.1 p.makes_nil.2
      have hself : scan .code p.text = some p.text := by simpa [scan, Mode.inLiteral] using hscan
      exact iff_of_true (by simpa using hself) (.singleton p)
    | cons n pieces =>
      obtain ⟨htripleHere, htripleRest⟩ := List.isChain_cons_cons.1 htriple
      obtain ⟨-, t, u, hnext⟩ := hsounds n List.mem_cons_self
      obtain ⟨hcommentText, htripleText⟩ :=
        Piece.makes_append hnext.text_ne_nil p (pieces.flatMap Piece.text)
      rw [List.isChain_cons_cons, List.flatMap_cons]
      rw [List.flatMap_cons] at ih ⊢
      cases hmade : p.makesComment n.text with
      | true =>
        have hnot := scan_of_makesComment (hcommentText.trans hmade)
        exact iff_of_false hnot fun h => Bool.false_ne_true h.1.symm
      | false =>
        rw [scan_piece hfront hp (hcommentText.trans hmade) (htripleText.trans htripleHere)]
        simpa using ih hsounds htripleRest

end Pieces

/-- **When cleaning is done once.** Let the cleaned form of a text not end in a semicolon, and let no
comment stand between an empty literal and another quote of its kind. Then cleaning it again changes
nothing if and only if no comment stands between two hyphens, or between a slash and a star. -/
theorem clean_again_iff {s t : String} {pieces : List Piece}
    (hread : Reading s.toList (some pieces)) (ht : clean s = .ok t)
    (hstop : t.toList.getLast? ≠ some ';')
    (htriple : (Piece.without pieces).IsChain fun p n => p.makesTriple n.text = false) :
    clean t = .ok t ↔ (Piece.without pieces).IsChain fun p n => p.makesComment n.text = false := by
  have hout : t.toList = finish ((Piece.without pieces).flatMap Piece.text) := by
    rw [clean_of_reading hread, Option.elim_some, Piece.flatMap_kept] at ht
    rw [← Except.ok.inj ht]
    exact String.toList_ofList
  have hdone : finish t.toList = t.toList := by
    rw [hout] at hstop ⊢
    exact finish_finish _ hstop
  obtain ⟨front, tail, hparts, hfront, htail⟩ :=
    exists_of_finish ((Piece.without pieces).flatMap Piece.text)
  rw [← hout] at hparts
  have hsound := sound_of_reading hread pieces rfl
  rw [clean_eq_self_iff hdone, uncommented, ← scan_eq_self_inner hfront htail, ← hparts,
    scan_pieces_iff hsound htriple]

/-- A character that the scanner passes over is a piece. -/
theorem front_of_advance {c : Char} {s : List Char} (h : advance .code c s = some (true, .code)) :
    Front (c :: s) (some (.other c, s)) := by
  refine .other ?_
  rintro (⟨o, ho, u, hu⟩ | ⟨u, hu⟩ | ⟨q, hq, u, hu⟩)
  · simp only [lineOpenings, List.mem_cons, List.not_mem_nil, or_false] at ho
    rcases ho with rfl | rfl
    · obtain ⟨rfl, rfl⟩ := List.cons.inj hu
      cases h
    · obtain ⟨rfl, rfl⟩ := List.cons.inj hu
      cases h
  · obtain ⟨rfl, rfl⟩ := List.cons.inj hu
    cases h
  · obtain ⟨rfl, rfl⟩ := List.cons.inj hu
    rw [advance_isQuote hq] at h
    split at h <;> cases h

/-- Characters that the scanner passes over are pieces. -/
theorem Reading.of_plain {part rest : List Char} {pieces : List Piece}
    (hpart : part.all isPlain = true) (h : Reading rest (some pieces)) :
    Reading (part ++ rest) (some (part.map .other ++ pieces)) := by
  induction part with
  | nil => exact h
  | cons c part ih =>
    simp only [List.all_cons, Bool.and_eq_true] at hpart
    exact .piece (front_of_advance (advance_code_of_isPlain hpart.1 _)) (ih hpart.2)

/-- A blank keeps two hyphens apart when a comment between them is taken out. -/
theorem hyphens_kept_apart :
    let s := "-/**/ -"
    let pieces := [Piece.other '-', .comment ['/', '*', '*', '/'], .other ' ', .other '-']
    Reading s.toList (some pieces) ∧ clean s = .ok "- -" ∧ "- -".toList.getLast? ≠ some ';' ∧
      ((Piece.without pieces).IsChain fun p n => p.makesTriple n.text = false) ∧
      ((Piece.without pieces).IsChain fun p n => p.makesComment n.text = false) ∧
      clean "- -" = .ok "- -" := by
  intro s pieces
  have hread : Reading s.toList (some pieces) := by
    have htext : s.toList = ['-', '/', '*', '*', '/', ' ', '-'] := by
      simp only [s]
      rfl
    rw [htext]
    have hblock : Front ['/', '*', '*', '/', ' ', '-'] (some (.comment _, [' ', '-'])) :=
      .block rfl (.close rfl)
    exact .piece (front_of_advance rfl) (.piece hblock (.piece (front_of_advance rfl)
      (.piece (front_of_advance rfl) .nil)))
  have hclean : clean s = .ok "- -" := by
    simp only [s]
    rfl
  have hstop : "- -".toList.getLast? ≠ some ';' := by decide
  have htriple : (Piece.without pieces).IsChain fun p n => p.makesTriple n.text = false := by decide
  have hcomment : (Piece.without pieces).IsChain fun p n => p.makesComment n.text = false := by
    decide
  exact ⟨hread, hclean, hstop, htriple, hcomment,
    (clean_again_iff hread hclean hstop htriple).2 hcomment⟩

/-- Where a comment stood between two hyphens, cleaning the cleaned text takes away more; where it stood
between an empty literal and a quote, cleaning it fails. -/
theorem joints_read_again :
    let minus := "SELECT 1 -- 1"
    let quoted := "SELECT '''a'"
    clean "SELECT 1 -/**/- 1" = .ok minus ∧ minus.toList.getLast? ≠ some ';' ∧
      clean minus = .ok "SELECT 1" ∧ clean minus ≠ .ok minus ∧
      clean "SELECT ''/**/'a'" = .ok quoted ∧ quoted.toList.getLast? ≠ some ';' ∧
      ∀ t, clean quoted ≠ .ok t := by
  have hminus : clean "SELECT 1 -- 1" = .ok "SELECT 1" := rfl
  have hquoted : clean "SELECT '''a'" = .error (.unclosedLiteral "SELECT '''a'") := rfl
  refine ⟨rfl, by decide +kernel, hminus, ?_, rfl, by decide +kernel, ?_⟩
  · rw [hminus]
    exact fun h => absurd (Except.ok.inj h) (by decide)
  · rw [hquoted]
    exact nofun

end DeferredTx.Statement
