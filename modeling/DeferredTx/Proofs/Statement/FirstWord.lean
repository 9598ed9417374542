import DeferredTx.Statement.Kind

/-!
# The first word of a cleaned text

* `finish_append`: what cleaning leaves of a text behind its first word.
* `exists_kindOf`: a text has a kind, unless an at sign opens it.
* `opensWith_append`: the first token of a cleaned text, by its first word and by what follows.
-/

namespace DeferredTx.Statement

open Text

/-- Text in front of which a word stands: whatever is trimmed, the word stays. -/
theorem trimEnd_append {u : List Char} (hu : ∀ c ∈ u.getLast?, isBlank c = false) (x : List Char) :
    trimEnd (u ++ x) = u ++ trimEnd x := by
  have hkeep : u.reverse.dropWhile isBlank = u.reverse := by
    rw [← List.head?_reverse] at hu
    cases hr : u.reverse with
    | nil => rfl
    | cons c r =>
      rw [hr] at hu
      exact List.dropWhile_cons_of_neg (by simp [hu c rfl])
  unfold trimEnd
  rw [List.reverse_append, List.dropWhile_append, hkeep]
  split
  · rename_i h
    rw [List.isEmpty_iff.1 h]
    simp
  · simp

theorem isPrefix_trimEnd (cs : List Char) : trimEnd cs <+: cs := by
  have h := List.reverse_prefix.2 (List.dropWhile_suffix isBlank (l := cs.reverse))
  simpa [trimEnd] using h

theorem dropTerminator_append {u : List Char} (hu : ∀ c ∈ u.getLast?, c ≠ ';') (x : List Char) :
    dropTerminator (u ++ x) = u ++ dropTerminator x := by
  cases x with
  | nil =>
    have hlast : u.getLast? ≠ some ';' := fun h => hu _ h rfl
    simp [dropTerminator, hlast]
  | cons c x =>
    have hlast : (u ++ c :: x).getLast? = (c :: x).getLast? := by
      rw [List.getLast?_append, List.getLast?_cons, Option.some_or]
    unfold dropTerminator
    rw [hlast]
    split
    · rw [List.dropLast_append_of_ne_nil (List.cons_ne_nil c x)]
    · rfl

theorem isPrefix_dropTerminator (cs : List Char) : dropTerminator cs <+: cs := by
  unfold dropTerminator
  split
  · exact List.dropLast_prefix cs
  · exact List.prefix_rfl

/-- Cleaning takes nothing from the front but blanks. -/
theorem isPrefix_finish (kept : List Char) : finish kept <+: kept.dropWhile isBlank := by
  have hcut : dropTerminator (trimEnd kept) <+: kept :=
    (isPrefix_dropTerminator _).trans (isPrefix_trimEnd kept)
  rw [finish, trim]
  generalize dropTerminator (trimEnd kept) = cut at hcut
  obtain ⟨x, rfl⟩ := hcut
  refine (isPrefix_trimEnd _).trans ?_
  rw [List.dropWhile_append]
  split
  · rename_i h
    rw [List.isEmpty_iff.1 h]
    exact List.nil_prefix
  · exact List.prefix_append _ _

/-- A word that trimming and dropping a semicolon cannot touch. -/
structure IsSolid (w : List Char) : Prop where
  ne_nil : w ≠ []
  notBlank : ∀ c ∈ w, isBlank c = false
  notStop : ∀ c ∈ w, c ≠ ';'

/-- What cleaning leaves behind the first word of a text. -/
theorem finish_append {blanks w : List Char} (hblanks : blanks.all isBlank = true) (hw : IsSolid w)
    (x : List Char) : ∃ y, y <+: x ∧ finish (blanks ++ w ++ x) = w ++ y := by
  have hlast : ∀ c ∈ (blanks ++ w).getLast?, c ∈ w := by
    intro c hc
    rw [List.getLast?_append] at hc
    cases hd : w.getLast? with
    | none => exact absurd (List.getLast?_eq_none_iff.1 hd) hw.ne_nil
    | some d =>
      rw [hd] at hc
      obtain rfl : d = c := Option.some.inj hc
      exact List.mem_of_getLast? hd
  have hlast' : ∀ c ∈ w.getLast?, isBlank c = false :=
    fun c hc => hw.notBlank c (List.mem_of_getLast? hc)
  refine ⟨trimEnd (dropTerminator (trimEnd x)), ?_, ?_⟩
  · exact (isPrefix_trimEnd _).trans ((isPrefix_dropTerminator _).trans (isPrefix_trimEnd x))
  · rw [finish, trimEnd_append fun c hc => hw.notBlank c (hlast c hc),
      dropTerminator_append fun c hc => hw.notStop c (hlast c hc), trim, List.append_assoc,
      List.dropWhile_append_of_pos (List.all_eq_true.1 hblanks)]
    cases hcons : w with
    | nil => exact absurd hcons hw.ne_nil
    | cons c r =>
      rw [List.cons_append, List.dropWhile_cons_of_neg, ← List.cons_append, ← hcons]
      · exact trimEnd_append hlast' _
      · have hc : isBlank c = false := hw.notBlank c (by simp [hcons])
        simp [hc]

/-- A cleaned text begins with the first character that is no blank. -/
theorem head_finish {blanks r : List Char} {c : Char} (hblanks : blanks.all isBlank = true)
    (hc : isBlank c = false) : ∀ e ∈ (finish (blanks ++ c :: r)).head?, e = c := by
  have hprefix := isPrefix_finish (blanks ++ c :: r)
  rw [List.dropWhile_append_of_pos (List.all_eq_true.1 hblanks),
    List.dropWhile_cons_of_neg (by simp [hc])] at hprefix
  intro e he
  cases hf : finish (blanks ++ c :: r) with
  | nil =>
    rw [hf] at he
    cases he
  | cons a y =>
    rw [hf] at he hprefix
    exact (Option.some.inj he).symm.trans (List.cons_prefix_cons.1 hprefix).1

/-- Only a text that begins with an at sign can be of no kind at all. -/
theorem exists_kindOf {cs : List Char} (h : cs.head? ≠ some '@') :
    ∃ kind, kindOf (String.ofList cs) = .ok kind := by
  have hat : (String.ofList cs).toList.head? ≠ some '@' := by
    rwa [String.toList_ofList]
  rw [kindOf, isQuery, if_neg hat]
  exact ⟨_, rfl⟩

/-- What cleaning a text comes to. -/
theorem clean_eq_ok_iff {sql t : String} : clean sql = .ok t ↔
    ∃ kept, uncommented sql.toList = some kept ∧ t = String.ofList (finish kept) := by
  unfold clean clean?
  cases uncommented sql.toList with
  | none => simp
  | some kept => simp [eq_comm]

theorem clean_eq_error_iff {sql : String} {e : DbError} : clean sql = .error e ↔
    uncommented sql.toList = none ∧ e = .unclosedLiteral sql := by
  unfold clean clean?
  cases uncommented sql.toList with
  | none => simp [eq_comm]
  | some kept => simp

/-- What a text whose literals are closed is classified as. -/
theorem classify_of_uncommented {sql : String} {kept : List Char}
    (h : uncommented sql.toList = some kept) :
    classify sql = (kindOf (String.ofList (finish kept))).map fun kind =>
      ⟨kind, String.ofList (finish kept)⟩ := by
  have hclean : clean sql = pure (String.ofList (finish kept)) := clean_eq_ok_iff.2 ⟨kept, h, rfl⟩
  rw [classify, hclean, pure_bind]
  cases kindOf (String.ofList (finish kept)) <;> rfl

/-- A text with an unclosed literal is not classified. -/
theorem classify_of_unclosed {sql : String} (h : uncommented sql.toList = none) :
    classify sql = .error (.unclosedLiteral sql) := by
  rw [classify, clean_eq_error_iff.2 ⟨h, rfl⟩]
  rfl

theorem uncommented_of_classify {sql : String} {c : Classified} (h : classify sql = .ok c) :
    ∃ kept, uncommented sql.toList = some kept := by
  cases hkept : uncommented sql.toList with
  | none =>
    rw [classify_of_unclosed hkept] at h
    cases h
  | some kept => exact ⟨kept, rfl⟩

/-- What classifying a text comes to. -/
theorem classify_eq_ok_iff {sql : String} {c : Classified} :
    classify sql = .ok c ↔ ∃ kept, uncommented sql.toList = some kept ∧
      c.sql = String.ofList (finish kept) ∧ kindOf c.sql = .ok c.kind := by
  constructor
  · intro h
    obtain ⟨kept, hkept⟩ := uncommented_of_classify h
    rw [classify_of_uncommented hkept] at h
    refine ⟨kept, hkept, ?_⟩
    cases hkind : kindOf (String.ofList (finish kept)) with
    | error e =>
      rw [hkind] at h
      cases h
    | ok kind =>
      rw [hkind] at h
      cases h
      exact ⟨rfl, hkind⟩
  · obtain ⟨kind, text⟩ := c
    rintro ⟨kept, hkept, rfl, hkind⟩
    rw [classify_of_uncommented hkept, show kindOf _ = .ok kind from hkind]
    rfl

/-- The first token of a text is its first word, if an ASCII blank follows it or nothing does. -/
theorem word?_append {w y : List Char} (hw : IsSolid w) : ∃ rest,
    word? isAsciiBlank (w ++ y) = some (w ++ y.takeWhile fun c => !isAsciiBlank c, rest) := by
  have hascii : ∀ c ∈ w, isAsciiBlank c = false := by
    intro c hc
    have hblank := hw.notBlank c hc
    cases ha : isAsciiBlank c with
    | false => rfl
    | true => exact absurd ((isBlank_of_isAsciiBlank ha).symm.trans hblank) nofun
  exact ⟨_, word?_run hw.ne_nil hascii y⟩

/-- Which words the first token of such a text is. -/
theorem opensWith_append {w y : List Char} (hw : IsSolid w) (words : List (List Char)) :
    opensWith words (String.ofList (w ++ y)) =
      words.any fun k => sameFold (w ++ y.takeWhile fun c => !isAsciiBlank c) k := by
  obtain ⟨rest, h⟩ := word?_append (y := y) hw
  rw [opensWith, String.toList_ofList, h]

end DeferredTx.Statement
