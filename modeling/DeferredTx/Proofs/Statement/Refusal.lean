import DeferredTx.Proofs.Statement.Again
import DeferredTx.Proofs.Statement.Joint

/-!
# What classifying refuses

A text that begins with a hint is read a second time from the closing brace that is taken for the end of
the hint, and that brace may stand inside of a literal.

* `OpensBehindHint`: a cleaned text of which that part leaves a literal open.
* `classify_eq_error_iff`: what is refused.
* `uncommented_behind_brace`: a part behind a brace that is in no literal leaves none open.
* `isWrite_iff`: **no write is lost**, whatever is refused.
* `classify_refuses_iff`: **what classifying refuses.**
-/

namespace DeferredTx.Statement

open Text

section Refused

variable {sql t : String} {e : DbError}

/-- Whether the part of a cleaned text behind its hint leaves a literal open when it is read on its
own. -/
structure OpensBehindHint (t : String) (rest : List Char) : Prop where
  at_sign : t.toList.head? = some '@'
  behind : behindHint? t.toList = some rest
  unclosed : uncommented rest = none

theorem kindOf_eq_error_iff : kindOf t = .error e ↔
    ∃ rest, OpensBehindHint t rest ∧ e = .unclosedLiteral (String.ofList rest) := by
  by_cases hat : t.toList.head? = some '@'
  · have hkind := kindOf_of_hinted hat
    rw [String.ofList_toList] at hkind
    rw [hkind, stripHint]
    cases hbehind : behindHint? t.toList with
    | none =>
      refine iff_of_false (fun h => by cases h) ?_
      rintro ⟨rest, h, -⟩
      cases h.behind.symm.trans hbehind
    | some rest =>
      have hmap : ∀ {f : String → Kind} {r : Except DbError String},
          r.map f = .error e ↔ r = .error e := by
        intro f r
        cases r <;> simp [Except.map]
      rw [hmap, clean_eq_error_iff, String.toList_ofList]
      constructor
      · rintro ⟨hopen, rfl⟩
        exact ⟨rest, ⟨hat, hbehind, hopen⟩, rfl⟩
      · rintro ⟨rest', h, rfl⟩
        obtain rfl : rest = rest' := Option.some.inj (hbehind.symm.trans h.behind)
        exact ⟨h.unclosed, rfl⟩
  · obtain ⟨kind, hkind⟩ := exists_kindOf hat
    rw [String.ofList_toList] at hkind
    rw [hkind]
    refine iff_of_false (fun h => by cases h) ?_
    rintro ⟨rest, h, -⟩
    exact hat h.at_sign

/-- **A text is refused** if a literal of it is not closed, or one of the part behind its hint. -/
theorem classify_eq_error_iff : classify sql = .error e ↔ clean sql = .error e ∨
    ∃ t rest, clean sql = .ok t ∧ OpensBehindHint t rest ∧
      e = .unclosedLiteral (String.ofList rest) := by
  rw [classify]
  cases hclean : clean sql with
  | error e' => simp [bind, Except.bind]
  | ok t =>
    have hkind : (do
        let kind ← kindOf t
        return (⟨kind, t⟩ : Classified)) = .error e ↔ kindOf t = .error e := by
      cases kindOf t <;> simp [bind, Except.bind, pure, Except.pure]
    refine hkind.trans (kindOf_eq_error_iff.trans ?_)
    simp

end Refused

section Braces

variable {pieces : List Piece}

/-- A character that is in no longer piece is a piece where it stands in a text. -/
theorem exists_of_append {c : Char} {a b : List Char}
    (hother : ∀ p ∈ pieces, c ∈ p.text → p = .other c)
    (h : pieces.flatMap Piece.text = a ++ c :: b) :
    ∃ front back, pieces = front ++ .other c :: back ∧ b = back.flatMap Piece.text := by
  induction pieces generalizing a with
  | nil => simp at h
  | cons p pieces ih =>
    obtain ⟨hp, hpieces⟩ := List.forall_mem_cons.1 hother
    rw [List.flatMap_cons, List.append_eq_append_iff] at h
    have hlater : ∀ {a}, pieces.flatMap Piece.text = a ++ c :: b → ∃ front back,
        p :: pieces = front ++ .other c :: back ∧ b = back.flatMap Piece.text := by
      intro a ha
      obtain ⟨front, back, rfl, hback⟩ := ih hpieces ha
      exact ⟨p :: front, back, rfl, hback⟩
    rcases h with ⟨a', rfl, hrest⟩ | ⟨d, hd, hrest⟩
    · exact hlater hrest
    · cases d with
      | nil => exact hlater (a := []) hrest.symm
      | cons x d =>
        -- the character is in this piece, which holds nothing else
        obtain ⟨rfl, hb⟩ := List.cons.inj hrest
        obtain rfl := hp (by simp [hd])
        have hlength := congrArg List.length hd
        simp [Piece.text] at hlength
        obtain rfl : d = [] := List.length_eq_zero_iff.1 (by omega)
        exact ⟨[], pieces, rfl, hb⟩

/-- What is cut off at the end of pieces that are kept as they are when read again, behind a brace that is
in no literal, is kept as it is. -/
theorem uncommented_behind_brace (hsound : ∀ p ∈ pieces, Sound p)
    (htriple : pieces.IsChain fun p n => p.makesTriple n.text = false)
    (hcomment : pieces.IsChain fun p n => p.makesComment n.text = false)
    (hbrace : ∀ text, .literal text ∈ pieces → '\x7d' ∉ text) {front rest tail : List Char}
    (htext : pieces.flatMap Piece.text = front ++ '\x7d' :: (rest ++ tail))
    (htail : tail.all isEdge = true) : uncommented rest = some rest := by
  have hother : ∀ p ∈ pieces, '\x7d' ∈ p.text → p = .other '\x7d' := by
    intro p hp hmem
    cases p with
    | comment text => exact absurd (hsound _ hp).1 nofun
    | literal text => exact absurd hmem (hbrace text hp)
    | other c =>
      obtain rfl := List.mem_singleton.1 hmem
      rfl
  obtain ⟨before, behind, rfl, hbehind⟩ := exists_of_append hother htext
  have hself : scan .code (rest ++ tail) = some (rest ++ tail) := by
    rw [hbehind]
    refine (scan_pieces_iff (fun p hp => hsound p ?_) ?_).2 ?_
    · exact List.mem_append_right _ (List.mem_cons_of_mem _ hp)
    · exact htriple.right_of_append.tail
    · exact hcomment.right_of_append.tail
  have hnone : ([] : List Char).all isBlank = true := rfl
  exact (scan_eq_self_inner hnone htail).1 hself

end Braces

section Writes

/-- A word that tells an update or a change of the schema tells no query. -/
theorem not_queryWord {w : List Char} (h : (updateWords ++ schemaWords).any (sameFold w) = true) :
    queryWords.any (sameFold w) = false := by
  have hapart : ∀ k ∈ updateWords ++ schemaWords, ∀ k' ∈ queryWords, fold k ≠ fold k' := by decide
  rw [← Bool.not_eq_true]
  intro hquery
  obtain ⟨k, hk, hsame⟩ := List.any_eq_true.1 h
  obtain ⟨k', hk', hsame'⟩ := List.any_eq_true.1 hquery
  exact hapart k hk k' hk' ((eq_of_beq hsame).symm.trans (eq_of_beq hsame'))

/-- Whether a cleaned text is a write by its first token. -/
theorem isWriteWord (t : String) : (isUpdate t || isSchemaChange t) =
    (updateWords ++ schemaWords).any (sameFold (token t.toList)) := by
  rw [isUpdate, isSchemaChange, ← String.ofList_toList (s := t), opensWith_eq (by decide),
    opensWith_eq (by decide), List.any_append, String.toList_ofList]

/-- A first token tells a write by its kind. -/
theorem wordKind_write (w : List Char) : (wordKind w == .update || wordKind w == .schemaChange) =
    (updateWords ++ schemaWords).any (sameFold w) := by
  cases hwrite : (updateWords ++ schemaWords).any (sameFold w) with
  | true =>
    rw [wordKind, not_queryWord hwrite]
    rw [List.any_append] at hwrite
    cases hupdate : updateWords.any (sameFold w) with
    | true => rfl
    | false =>
      rw [hupdate, Bool.false_or] at hwrite
      rw [hwrite]
      rfl
  | false =>
    rw [List.any_append, Bool.or_eq_false_iff] at hwrite
    rw [wordKind, hwrite.1, hwrite.2]
    split <;> rfl

/-- **No write is lost**: a text counts as one if its literals are closed and its first token says so. -/
theorem isWrite_iff (sql : String) : isWrite sql = true ↔
    ∃ t, clean sql = .ok t ∧ (isUpdate t || isSchemaChange t) = true := by
  cases hkept : uncommented sql.toList with
  | none =>
    have herror : clean sql = .error _ := clean_eq_error_iff.2 ⟨hkept, rfl⟩
    rw [isWrite, classify_of_unclosed hkept, herror]
    simp
  | some kept =>
    have hclean : clean sql = .ok (String.ofList (finish kept)) := clean_eq_ok_iff.2 ⟨kept, hkept, rfl⟩
    have hright : (∃ t, clean sql = .ok t ∧ (isUpdate t || isSchemaChange t) = true) ↔
        (updateWords ++ schemaWords).any (sameFold (token (finish kept))) = true := by
      simp [hclean, isWriteWord]
    rw [hright]
    cases hhead : decide ((finish kept).head? = some '@') with
    | false =>
      rw [isWrite, classify_of_uncommented hkept, kindOf_of_not_hinted (of_decide_eq_false hhead)]
      exact Bool.eq_iff_iff.1 (wordKind_write _)
    | true =>
      -- with an at sign in front, it is neither classified as a write nor is its first token one
      have hat := of_decide_eq_true hhead
      have hfirst : (kept.dropWhile isBlank).head? = some '@' :=
        head?_of_isPrefix (isPrefix_finish kept) _ hat
      obtain ⟨cs, hcs⟩ := List.head?_eq_some_iff.1 hat
      have hnone := not_isKeyword_of_at cs
      rw [← hcs, isKeyword, keywords, List.append_assoc, List.any_append, Bool.or_eq_false_iff] at hnone
      rw [isWrite_of_at hkept hfirst, hnone.2]

end Writes

/-- Pieces that are read again as they are when the comments between them are gone. -/
structure ReadAgain (pieces : List Piece) : Prop where
  noTriple : (Piece.without pieces).IsChain fun p n => p.makesTriple n.text = false
  noComment : (Piece.without pieces).IsChain fun p n => p.makesComment n.text = false

/-- **What classifying refuses.**

* A text is refused if a literal of it is not closed, and with the same error as by cleaning. Otherwise it
  is refused if its cleaned form begins with an at sign, and the part of that behind the brace that is
  taken for the end of the hint leaves a literal open when it is read on its own.
* That never comes about if no literal of the text holds a closing brace and no comment stands where what
  is on both sides of it would be read together.
* A text counts as a write whenever its literals are closed and the first token of its cleaned form is a
  word that tells one. -/
theorem classify_refuses_iff (sql : String) :
    (∀ e, classify sql = .error e ↔ clean sql = .error e ∨
      ∃ t rest, clean sql = .ok t ∧ OpensBehindHint t rest ∧
        e = .unclosedLiteral (String.ofList rest)) ∧
    (∀ pieces, Reading sql.toList (some pieces) → ReadAgain pieces →
      (∀ text, .literal text ∈ pieces → '\x7d' ∉ text) → ∃ c, classify sql = .ok c) ∧
    (isWrite sql = true ↔ ∃ t, clean sql = .ok t ∧ (isUpdate t || isSchemaChange t) = true) := by
  refine ⟨fun e => classify_eq_error_iff, fun pieces hread hagain hbrace => ?_, isWrite_iff sql⟩
  cases hclassify : classify sql with
  | ok c => exact ⟨c, rfl⟩
  | error e =>
    exfalso
    have hclean := clean_of_reading hread
    rw [Option.elim_some, Piece.flatMap_kept] at hclean
    rcases classify_eq_error_iff.1 hclassify with herror | ⟨t, rest, ht, hopens, -⟩
    · exact absurd (hclean.symm.trans herror) nofun
    · -- the brace that ends the hint is a piece, and what is behind it is read as it was
      obtain rfl := Except.ok.inj (hclean.symm.trans ht)
      obtain ⟨hint, hhint⟩ := behindHint?_eq_some hopens.behind
      obtain ⟨front, tail, hparts, -, htail⟩ :=
        exists_of_finish ((Piece.without pieces).flatMap Piece.text)
      rw [String.toList_ofList] at hhint
      have htext : (Piece.without pieces).flatMap Piece.text =
          (front ++ hint) ++ '\x7d' :: (rest ++ tail) := by
        rw [hparts, hhint]
        simp
      have hkept := uncommented_behind_brace (sound_of_reading hread pieces rfl) hagain.noTriple
        hagain.noComment (fun text hmem => hbrace text (List.mem_of_mem_filter hmem)) htext htail
      exact absurd (hkept.symm.trans hopens.unclosed) nofun

/-- A query behind a hint, with a closing brace in a comment and an opening one in a literal. -/
theorem comment_with_brace_classified :
    let sql := "@\x7bh\x7d WITH /*\x7d*/ '\x7b'"
    let pieces := "@\x7bh\x7d WITH ".toList.map .other ++
      [.comment "/*\x7d*/".toList, .other ' ', .literal "'\x7b'".toList]
    Reading sql.toList (some pieces) ∧ ReadAgain pieces ∧
      (∀ text, .literal text ∈ pieces → '\x7d' ∉ text) ∧ ∃ c, classify sql = .ok c := by
  intro sql pieces
  have hread : Reading sql.toList (some pieces) := by
    have htext : sql.toList = "@\x7bh\x7d WITH ".toList ++
        ['/', '*', '\x7d', '*', '/', ' ', '\'', '\x7b', '\''] := by decide +kernel
    have hblock : Front ['/', '*', '\x7d', '*', '/', ' ', '\'', '\x7b', '\'']
        (some (.comment _, [' ', '\'', '\x7b', '\''])) :=
      .block rfl (.more (by decide) (.close rfl))
    have hliteral : Front ['\'', '\x7b', '\''] (some (.literal ['\'', '\x7b', '\''], [])) := by
      have htail : LiteralTail '\'' false ['\x7b', '\''] _ :=
        .symbol rfl (.bare (by decide)) (by decide) rfl (.close rfl)
      exact .literal rfl rfl (fun _ => by decide) htail
    rw [htext]
    exact .of_plain (by decide +kernel) (.piece hblock (.piece (front_of_advance rfl)
      (.piece hliteral .nil)))
  have hagain : ReadAgain pieces := ⟨by decide +kernel, by decide +kernel⟩
  have hbrace : ∀ text, .literal text ∈ pieces → '\x7d' ∉ text := by
    intro text hmem
    have hlast : text = "'\x7b'".toList := by simpa [pieces] using hmem
    rw [hlast]
    decide
  exact ⟨hread, hagain, hbrace, (classify_refuses_iff sql).2.1 pieces hread hagain hbrace⟩

/-- Texts without an unclosed literal that are refused all the same: the brace in front of the query word
is in the literal that holds them, or a literal stands between them. -/
theorem brace_in_literal_refused :
    let inside := "@\x7bOPT=1\x7d UPDATE t SET a = '\x7d with'"
    let between := "@\x7bOPT=1\x7d '\x7d' SELECT 1"
    clean inside = .ok inside ∧ classify inside = .error (.unclosedLiteral " with'") ∧
      clean between = .ok between ∧ classify between = .error (.unclosedLiteral "' SELECT 1") := by
  decide +kernel

end DeferredTx.Statement
