import DeferredTx.Proofs.Statement.Finish
import DeferredTx.Proofs.Statement.Hinted
import DeferredTx.Proofs.Statement.LetterCase

/-!
# A comment is not a blank

A block comment leaves nothing, so what stands on both sides of it is joined; a blank keeps it apart. The
kind of a statement can tell the two.

* `isKeyword`, `wordKind`: the first tokens that tell the kind of a statement.
* `joinsKeyword`: whether a keyword stands at a joint, or is made there, at the start of a statement.
* `wordKind_eq_iff`: the first tokens with and without a blank at the joint.
* `classify_across_comment`: **where a comment may stand for a blank.**
-/

namespace DeferredTx.Statement

open Text

section FirstToken

variable {w v cs : List Char}

/-- The words that tell the kind of a statement. -/
def keywords : List (List Char) :=
  queryWords ++ updateWords ++ schemaWords

/-- Whether a token is one of these words, in any case. -/
def isKeyword (w : List Char) : Bool :=
  keywords.any (sameFold w)

/-- The kind of a statement that begins with a token, if no hint stands in front of it. -/
def wordKind (w : List Char) : Kind :=
  if queryWords.any (sameFold w) then .query
  else if updateWords.any (sameFold w) then .update
  else if schemaWords.any (sameFold w) then .schemaChange
  else .unknown

/-- The first token of a text, which may be empty. -/
def token (cs : List Char) : List Char :=
  (cs.dropWhile isAsciiBlank).takeWhile (!isAsciiBlank ·)

theorem wordKind_eq_unknown_iff : wordKind w = .unknown ↔ isKeyword w = false := by
  simp only [wordKind, isKeyword, keywords, List.any_append, Bool.or_eq_false_iff]
  split
  · simp_all
  · split
    · simp_all
    · split <;> simp_all

/-- Keywords are made of letters. -/
theorem isAlpha_of_isKeyword (h : isKeyword w = true) : ∀ c ∈ w, c.isAlpha = true :=
  isAlpha_of_sameFold (by decide +kernel) h

/-- No keyword begins with another one. -/
theorem not_isKeyword_append (hw : isKeyword w = true) (hv : v ≠ []) : isKeyword (w ++ v) = false := by
  have hapart : ∀ k ∈ keywords, ∀ k' ∈ keywords, fold k <+: fold k' →
      (fold k).length = (fold k').length := by
    decide +kernel
  rw [← Bool.not_eq_true]
  intro hjoined
  obtain ⟨k, hk, hsame⟩ := List.any_eq_true.1 hw
  obtain ⟨k', hk', hsame'⟩ := List.any_eq_true.1 hjoined
  have hfold : fold w = fold k := eq_of_beq hsame
  have hfold' : fold w ++ fold v = fold k' := by rw [← fold_append, eq_of_beq hsame']
  have hlength := hapart k hk k' hk' ⟨fold v, by rw [← hfold, hfold']⟩
  rw [← hfold, ← hfold', List.length_append, fold, fold, List.length_map, List.length_map] at hlength
  exact hv (List.length_eq_zero_iff.1 (Nat.left_eq_add.1 hlength))

/-- A token tells the same as a longer one if neither is a keyword. -/
theorem wordKind_append_iff (hv : v ≠ []) : wordKind (w ++ v) = wordKind w ↔
    isKeyword w = false ∧ isKeyword (w ++ v) = false := by
  constructor
  · intro hsame
    cases hw : isKeyword w with
    | false => exact ⟨rfl, wordKind_eq_unknown_iff.1 (hsame.trans (wordKind_eq_unknown_iff.2 hw))⟩
    | true =>
      have hjoined := wordKind_eq_unknown_iff.2 (not_isKeyword_append hw hv)
      exact absurd (hw.symm.trans (wordKind_eq_unknown_iff.1 (hsame.symm.trans hjoined))) nofun
  · rintro ⟨hw, hjoined⟩
    rw [wordKind_eq_unknown_iff.2 hw, wordKind_eq_unknown_iff.2 hjoined]

theorem opensWith_eq {words : List (List Char)} (hwords : words.any (sameFold []) = false)
    (cs : List Char) : opensWith words (String.ofList cs) = words.any (sameFold (token cs)) := by
  rw [opensWith, String.toList_ofList, word?, token]
  cases cs.dropWhile isAsciiBlank with
  | nil => exact hwords.symm
  | cons c r => rfl

/-- The first token tells the kind of a cleaned text without a hint. -/
theorem kindOf_of_not_hinted (h : cs.head? ≠ some '@') :
    kindOf (String.ofList cs) = .ok (wordKind (token cs)) := by
  have hat : (String.ofList cs).toList.head? ≠ some '@' := by rwa [String.toList_ofList]
  rw [kindOf, isQuery, if_neg hat, isUpdate, isSchemaChange, opensWith_eq (by decide),
    opensWith_eq (by decide), opensWith_eq (by decide)]
  rfl

/-- An at sign is in no keyword. -/
theorem not_isKeyword_of_at (cs : List Char) : isKeyword (token ('@' :: cs)) = false := by
  rw [← Bool.not_eq_true]
  intro hword
  have halpha := isAlpha_of_isKeyword hword '@' (by simp [token, isAsciiBlank])
  cases halpha

/-- Query words open a text whose first token tells that it is a query. -/
theorem opensWith_queryWords (cs : List Char) :
    opensWith queryWords (String.ofList cs) = decide (wordKind (token cs) = .query) := by
  rw [opensWith_eq (by decide), wordKind]
  repeat' split
  all_goals simp_all

/-- With an at sign in front, they open none. -/
theorem not_opensWith_of_at (cs : List Char) :
    opensWith queryWords (String.ofList ('@' :: cs)) = false := by
  rw [opensWith_queryWords, wordKind_eq_unknown_iff.2 (not_isKeyword_of_at cs)]
  rfl

/-- A cleaned text with a hint is a query or of no kind. -/
theorem kindOf_of_hinted (h : cs.head? = some '@') : kindOf (String.ofList cs) =
    (stripHint (String.ofList cs)).map fun s =>
      if opensWith queryWords s then .query else .unknown := by
  obtain ⟨cs, rfl⟩ := List.head?_eq_some_iff.1 h
  have hat : (String.ofList ('@' :: cs)).toList.head? = some '@' := by
    rw [String.toList_ofList]
    rfl
  have hnone := not_isKeyword_of_at cs
  simp only [isKeyword, keywords, List.any_append, Bool.or_eq_false_iff] at hnone
  rw [kindOf, isQuery, if_pos hat, isUpdate, isSchemaChange, opensWith_eq (by decide),
    opensWith_eq (by decide), hnone.1.2, hnone.2]
  cases stripHint (String.ofList ('@' :: cs)) <;> rfl

/-- The first token of a text in two parts ends in the first one, or goes on in the second. -/
theorem token_append (hw : w ≠ []) (hhead : ∀ c ∈ w.head?, isBlank c = false) (z : List Char) :
    token (w ++ z) = if w.all (!isAsciiBlank ·) then w ++ z.takeWhile (!isAsciiBlank ·)
      else w.takeWhile (!isAsciiBlank ·) := by
  obtain ⟨c, r, rfl⟩ := List.exists_cons_of_ne_nil hw
  have hc : isAsciiBlank c = false := by
    rw [← Bool.not_eq_true]
    intro hblank
    exact absurd ((isBlank_of_isAsciiBlank hblank).symm.trans (hhead c rfl)) nofun
  have hdrop : (c :: r ++ z).dropWhile isAsciiBlank = c :: r ++ z :=
    List.dropWhile_cons_of_neg (by simp [hc])
  rw [token, hdrop]
  split
  · rename_i hall
    rw [List.takeWhile_append_of_pos (List.all_eq_true.1 hall)]
  · rename_i hall
    rw [List.takeWhile_append, if_neg]
    intro hlength
    have hself := (List.takeWhile_prefix (!isAsciiBlank ·)).eq_of_length hlength
    exact hall (List.all_eq_true.2 (List.takeWhile_eq_self_iff.1 hself))

end FirstToken

section Joined

variable {x y : List Char}

/-- Whether a keyword ends at the joint of two texts, or is made by it, at the start of a statement. -/
def joinsKeyword (x y : List Char) : Bool :=
  let w := x.dropWhile isBlank
  let v := (finishEnd y).takeWhile (!isAsciiBlank ·)
  !w.isEmpty && !v.isEmpty && w.all (!isAsciiBlank ·) && (isKeyword w || isKeyword (w ++ v))

theorem head_dropWhile (x : List Char) : ∀ c ∈ (x.dropWhile isBlank).head?, isBlank c = false := by
  obtain ⟨-, -, -, hhead⟩ := leftTrimmed_iff.2 (rfl : x.dropWhile isBlank = _)
  exact hhead

theorem head_spaced (x y : List Char) : ((x ++ ' ' :: y).dropWhile isBlank).head? =
    ((x ++ y).dropWhile isBlank).head? := by
  rw [List.dropWhile_append, List.dropWhile_append]
  split
  · rw [List.dropWhile_cons_of_pos (by decide)]
  · rename_i hx
    have hne : x.dropWhile isBlank ≠ [] := by simpa using hx
    rw [List.head?_append_of_ne_nil _ hne, List.head?_append_of_ne_nil _ hne]

/-- **First tokens tell the same kind with and without a blank** if and only if the joint is neither behind
a keyword nor inside one. -/
theorem wordKind_eq_iff (x y : List Char) :
    wordKind (token (finish (x ++ y))) = wordKind (token (finish (x ++ ' ' :: y))) ↔
      joinsKeyword x y = false := by
  by_cases hnil : x.dropWhile isBlank = [] ∨ finishEnd y = []
  · rw [finish_spaced_of_nil hnil]
    refine iff_of_true rfl ?_
    rcases hnil with hx | hy
    · simp [joinsKeyword, hx]
    · simp [joinsKeyword, hy]
  · obtain ⟨hx, hy⟩ := not_or.1 hnil
    rw [finish_split hx hy, finish_spaced hx hy, token_append hx (head_dropWhile x),
      token_append hx (head_dropWhile x)]
    cases hall : (x.dropWhile isBlank).all (!isAsciiBlank ·) with
    | false => simp [joinsKeyword, hall]
    | true =>
      -- the first token is cut at the blank, or goes on up to the next one
      have hspace : (' ' :: finishEnd y).takeWhile (!isAsciiBlank ·) = [] :=
        List.takeWhile_cons_of_neg (by decide)
      rw [if_pos rfl, if_pos rfl, hspace, List.append_nil]
      by_cases hv : (finishEnd y).takeWhile (!isAsciiBlank ·) = []
      · simp [joinsKeyword, hv]
      · rw [wordKind_append_iff hv]
        simp [joinsKeyword, hx, hv, hall]

/-- A blank behind the joint, or a character in front of it that is no letter, keeps a keyword out of it. -/
theorem joinsKeyword_eq_false
    (h : ∀ p ∈ x.getLast?, ∀ n ∈ y.head?, isAsciiBlank n = true ∨ p.isAlpha = false) :
    joinsKeyword x y = false := by
  rw [← Bool.not_eq_true]
  intro hjoins
  simp only [joinsKeyword, Bool.and_eq_true, Bool.not_eq_true', List.isEmpty_eq_false_iff,
    Bool.or_eq_true] at hjoins
  obtain ⟨⟨⟨hw, hv⟩, -⟩, hword⟩ := hjoins
  obtain ⟨blanks, hx⟩ := List.dropWhile_suffix isBlank (l := x)
  obtain ⟨rest, hy⟩ := isPrefix_finishEnd y
  generalize x.dropWhile isBlank = w at hw hword hx
  generalize finishEnd y = e at hv hword hy
  subst hx hy
  obtain ⟨p, hp⟩ := Option.ne_none_iff_exists'.1 (mt List.getLast?_eq_none_iff.1 hw)
  cases e with
  | nil => exact hv rfl
  | cons n e =>
    have hlast : p ∈ (blanks ++ w).getLast? := by rwa [List.getLast?_append_of_ne_nil blanks hw]
    rcases h p hlast n rfl with hblank | halpha
    · exact hv (List.takeWhile_cons_of_neg (by simp [hblank]))
    · have hletter : p.isAlpha = true := by
        have hmem := List.mem_of_getLast? hp
        rcases hword with hword | hword
        · exact isAlpha_of_isKeyword hword p hmem
        · exact isAlpha_of_isKeyword hword p (List.mem_append_left _ hmem)
      exact absurd (hletter.symm.trans halpha) nofun

end Joined

section Hint

variable {u e : List Char}

/-- Two texts that are read again as if a blank stood between them. -/
structure ReadsApart (u e : List Char) : Prop where
  noWord : ¬ SpellsAcross u e
  noSign : ∀ p ∈ u.getLast?, ∀ n ∈ e.head?, sticks p n = false

theorem getLast?_of_isSuffix {r u : List Char} (h : r <:+ u) : ∀ p ∈ r.getLast?, p ∈ u.getLast? := by
  obtain ⟨t, rfl⟩ := h
  intro p hp
  rw [List.getLast?_append, hp]
  rfl

theorem head?_of_isPrefix {e y : List Char} (h : e <+: y) : ∀ n ∈ e.head?, n ∈ y.head? := by
  obtain ⟨t, rfl⟩ := h
  intro n hn
  rw [List.head?_append, hn]
  rfl

theorem ReadsApart.mono {x y : List Char} (h : ReadsApart x y) (hu : u <:+ x) (he : e <+: y) :
    ReadsApart u e where
  noWord hin := h.noWord (hin.mono hu he)
  noSign p hp n hn := h.noSign p (getLast?_of_isSuffix hu p hp) n (head?_of_isPrefix he n hn)

/-- Whether a blank between two characters neither cuts a word nor comes up behind a whole one: one is
there anyway, or no letter stands in front of it, nor the end of a comment. -/
def splitsNoWord (p n : Char) : Bool :=
  isAsciiBlank n || !p.isAlpha && p != '/'

/-- Two texts with such a joint. -/
def SplitsNoWord (u e : List Char) : Prop :=
  ∀ p ∈ u.getLast?, ∀ n ∈ e.head?, splitsNoWord p n = true

theorem SplitsNoWord.mono {x y : List Char} (h : SplitsNoWord x y) (hu : u <:+ x) (he : e <+: y) :
    SplitsNoWord u e :=
  fun p hp n hn => h p (getLast?_of_isSuffix hu p hp) n (head?_of_isPrefix he n hn)

/-- Then there is no keyword at the joint in what is kept, either. -/
theorem joinsKeyword_of_reading {m : Mode} {k l : List Char} (hread : reading .code u [] = some (k, m))
    (hcomment : m.inComment = false) (hscan : scan m e = some l) (h : SplitsNoWord u e) :
    joinsKeyword k l = false := by
  have hcode : ∀ part, Mode.code.Expects part := fun _ => trivial
  have hm : m.Expects [] := (hcode _).reading hread
  refine joinsKeyword_eq_false fun p hp n hn => ?_
  have hne : u ≠ [] := by
    rintro rfl
    cases hread
    cases hp
  obtain ⟨r, p', rfl⟩ : ∃ r p', u = r ++ [p'] := ⟨_, _, (List.dropLast_concat_getLast hne).symm⟩
  cases e with
  | nil =>
    rw [scan] at hscan
    split at hscan
    · cases hscan
    · cases hscan
      cases hn
  | cons n' e =>
    have hsplits := h p' (by simp) n' rfl
    simp only [splitsNoWord, Bool.or_eq_true, Bool.and_eq_true, Bool.not_eq_true', bne_iff_ne] at hsplits
    rcases hsplits with hblank | ⟨halpha, hslash⟩
    -- both characters are kept, since no comment is open between them
    · left
      obtain ⟨keep, next, l', hadvance, -, rfl⟩ := scan_cons_eq_some hscan
      obtain rfl := kept_of_blank hm hcomment (isBlank_of_isAsciiBlank hblank) hadvance
      cases hn
      exact hblank
    · right
      obtain ⟨k', m', keep, hread', hadvance, rfl⟩ := reading_concat hread
      have hm' : m'.Expects [p'] := (hcode _).reading hread'
      obtain rfl := kept_of_advance hm' hcomment hslash hadvance
      obtain rfl : p' = p := by simpa using hp
      exact halpha

/-- Cleaning two texts, if their literals are closed in both or in neither. -/
theorem clean_agree {R : String → String → Prop} {cs ds : List Char}
    (h : uncommented cs = none ∧ uncommented ds = none ∨
      ∃ k l, uncommented cs = some k ∧ uncommented ds = some l ∧
        R (String.ofList (finish k)) (String.ofList (finish l))) :
    Agree R (clean (String.ofList cs)) (clean (String.ofList ds)) := by
  simp only [clean, clean?, String.toList_ofList]
  rcases h with ⟨hcs, hds⟩ | ⟨k, l, hcs, hds, hR⟩
  · rw [hcs, hds]
    exact .failed _ _
  · rw [hcs, hds]
    exact .done hR

/-- Two texts behind hints are both queries or both none, if the blank splits no word. -/
def SameQuery (u e : List Char) (s t : String) : Prop :=
  SplitsNoWord u e → opensWith queryWords s = opensWith queryWords t

/-- **Behind a hint** the rest of a text is cleaned with the blank as without it. -/
theorem clean_spaced (h : ReadsApart u e) : Agree (SameQuery u e)
    (clean (String.ofList (u ++ e))) (clean (String.ofList (u ++ ' ' :: e))) := by
  refine clean_agree ?_
  rcases scan_spaced h.noSign with hsame | ⟨k, m, hread, hcomment, hjoined, hspaced⟩
  · rw [uncommented, uncommented, hsame]
    cases hscan : scan .code (u ++ e) with
    | none => exact Or.inl ⟨rfl, rfl⟩
    | some l => exact Or.inr ⟨l, l, rfl, rfl, fun _ => rfl⟩
  · rw [uncommented, uncommented, hjoined, hspaced]
    cases hscan : scan m e with
    | none => exact Or.inl ⟨rfl, rfl⟩
    | some l =>
      refine Or.inr ⟨k ++ l, k ++ ' ' :: l, rfl, rfl, fun hsplits => ?_⟩
      have hkinds := (wordKind_eq_iff k l).2 (joinsKeyword_of_reading hread hcomment hscan hsplits)
      rw [opensWith_queryWords, opensWith_queryWords, hkinds]

/-- **A hint is taken off** a text with the blank as it is taken off without it. -/
theorem stripHint_spaced (hu : u.head? = some '@') (h : ReadsApart u e) : Agree (SameQuery u e)
    (stripHint (String.ofList (u ++ e))) (stripHint (String.ofList (u ++ ' ' :: e))) := by
  obtain ⟨u, rfl⟩ := List.head?_eq_some_iff.1 hu
  simp only [stripHint, String.toList_ofList]
  rcases behindHint?_spaced h.noWord with hsame | ⟨r, hr, hjoined, hspaced⟩
  · rw [hsame]
    cases behindHint? ('@' :: u ++ e) with
    -- without a hint the at sign is in front, and that opens no query
    | none => exact .done fun _ => (not_opensWith_of_at _).trans (not_opensWith_of_at _).symm
    | some rest => exact .refl (fun _ _ => rfl) _
  · rw [hjoined, hspaced]
    exact (clean_spaced (h.mono hr List.prefix_rfl)).imp fun hst hsplits =>
      hst (hsplits.mono hr List.prefix_rfl)

/-- A text with a hint is of the same kind with a blank at a joint that splits no word. -/
theorem kindOf_spaced {x y : List Char} (hat : ((x ++ y).dropWhile isBlank).head? = some '@')
    (h : ReadsApart x y) : Agree (fun k k' => SplitsNoWord x y → k = k')
      (kindOf (String.ofList (finish (x ++ y)))) (kindOf (String.ofList (finish (x ++ ' ' :: y)))) := by
  by_cases hnil : x.dropWhile isBlank = [] ∨ finishEnd y = []
  · rw [finish_spaced_of_nil hnil]
    exact .refl (fun _ _ => rfl) _
  · obtain ⟨hx, hy⟩ := not_or.1 hnil
    have hsuffix := List.dropWhile_suffix isBlank (l := x)
    have hprefix := isPrefix_finishEnd y
    have hhead : (x.dropWhile isBlank).head? = some '@' := by
      rw [List.dropWhile_append, if_neg (by simpa using hx)] at hat
      rwa [List.head?_append_of_ne_nil _ hx] at hat
    rw [finish_split hx hy, finish_spaced hx hy, kindOf_of_hinted (by simp [hhead]),
      kindOf_of_hinted (by simp [hhead])]
    refine (stripHint_spaced hhead (h.mono hsuffix hprefix)).map fun hst hsplits => ?_
    rw [hst (hsplits.mono hsuffix hprefix)]

/-- No text with a hint counts as a write. -/
theorem isWrite_of_at {sql : String} {kept : List Char} (h : uncommented sql.toList = some kept)
    (hat : (kept.dropWhile isBlank).head? = some '@') : isWrite sql = false := by
  have hprefix := isPrefix_finish kept
  rw [isWrite, classify_of_uncommented h]
  generalize finish kept = cs at hprefix ⊢
  cases cs with
  | nil => rfl
  | cons c cs =>
    obtain rfl : c = '@' := Option.some.inj ((head?_of_isPrefix hprefix c rfl).symm.trans hat)
    rw [kindOf_of_hinted rfl]
    cases stripHint (String.ofList ('@' :: cs)) with
    | error e => rfl
    | ok rest =>
      simp only [Except.map]
      split <;> rfl

end Hint

/-- **Where a comment may stand for a blank.** Let the scan of `a` end outside of literals and comments,
and a block comment stand behind it. If a literal of `b` is not closed, the text is classified neither
with the comment nor with a blank in its place. Otherwise:

* Without a hint both texts are classified, and they are of the same kind if and only if the comment
  neither stands behind the keyword that opens the statement nor takes its two halves apart.
* Behind a hint the text is read once more, with the comment gone. Both texts are classified or both
  refused if what stands on both sides of the comment spells no query word together and does not stick
  together; if moreover a blank there splits no word, they are of the same kind.
* Both are writes or neither is, behind a hint and wherever the comment is not at that keyword. -/
theorem classify_across_comment {a body b : String} {x : List Char}
    (ha : reading .code a.toList [] = some (x, .code)) (hbody : ¬ ['*', '/'] <:+: body.toList) :
    let joined := a ++ "/*" ++ body ++ "*/" ++ b
    let spaced := a ++ " " ++ b
    (uncommented b.toList = none → ∀ c, classify joined ≠ .ok c ∧ classify spaced ≠ .ok c) ∧
      ∀ y, uncommented b.toList = some y →
        (((x ++ y).dropWhile isBlank).head? ≠ some '@' →
          ∃ r r', classify joined = .ok r ∧ classify spaced = .ok r' ∧
            (r.kind = r'.kind ↔ joinsKeyword x y = false)) ∧
        (ReadsApart x y → Agree (fun r r' => SplitsNoWord x y → r.kind = r'.kind)
          (classify joined) (classify spaced)) ∧
        (((x ++ y).dropWhile isBlank).head? = some '@' ∨ joinsKeyword x y = false →
          isWrite joined = isWrite spaced) := by
  intro joined spaced
  have hjoined : uncommented joined.toList = (uncommented b.toList).map (x ++ ·) := by
    have htext : joined.toList =
        a.toList ++ '/' :: '*' :: (body.toList ++ '*' :: '/' :: b.toList) := by
      simp [joined]
    rw [htext, uncommented, scan_closed ha (harmless_cons _), scan_block hbody]
    rfl
  have hspaced : uncommented spaced.toList = (uncommented b.toList).map (x ++ ' ' :: ·) := by
    have htext : spaced.toList = a.toList ++ ' ' :: b.toList := by simp [spaced]
    rw [htext, uncommented, scan_closed ha (harmless_cons _), scan_cons_kept rfl, Option.map_map]
    rfl
  constructor
  · intro hb c
    rw [hb] at hjoined hspaced
    constructor
    · intro hc
      obtain ⟨kept, hkept⟩ := uncommented_of_classify hc
      rw [hjoined] at hkept
      cases hkept
    · intro hc
      obtain ⟨kept, hkept⟩ := uncommented_of_classify hc
      rw [hspaced] at hkept
      cases hkept
  · intro y hy
    rw [hy] at hjoined hspaced
    have hplain : ((x ++ y).dropWhile isBlank).head? ≠ some '@' →
        ∃ r r', classify joined = .ok r ∧ classify spaced = .ok r' ∧
          (r.kind = r'.kind ↔ joinsKeyword x y = false) := by
      intro hat
      have hat' : ((x ++ ' ' :: y).dropWhile isBlank).head? ≠ some '@' := by rwa [head_spaced]
      have hnot : ∀ {kept : List Char}, (kept.dropWhile isBlank).head? ≠ some '@' →
          (finish kept).head? ≠ some '@' :=
        fun hkept hin => hkept (head?_of_isPrefix (isPrefix_finish _) _ hin)
      rw [classify_of_uncommented hjoined, classify_of_uncommented hspaced,
        kindOf_of_not_hinted (hnot hat), kindOf_of_not_hinted (hnot hat')]
      exact ⟨_, _, rfl, rfl, wordKind_eq_iff x y⟩
    by_cases hat : ((x ++ y).dropWhile isBlank).head? = some '@'
    · refine ⟨fun hnot => absurd hat hnot, fun hapart => ?_, fun _ => ?_⟩
      · rw [classify_of_uncommented hjoined, classify_of_uncommented hspaced]
        exact (kindOf_spaced hat hapart).map id
      · rw [isWrite_of_at hjoined hat, isWrite_of_at hspaced (by rwa [head_spaced])]
    · obtain ⟨r, r', hr, hr', hkinds⟩ := hplain hat
      refine ⟨hplain, fun _ => ?_, fun hkeyword => ?_⟩
      · rw [hr, hr']
        refine .done fun hsplits => hkinds.2 (joinsKeyword_eq_false fun p hp n hn => ?_)
        have hchars := hsplits p hp n hn
        simp only [splitsNoWord, Bool.or_eq_true, Bool.and_eq_true, Bool.not_eq_true'] at hchars
        exact hchars.imp id And.left
      · rw [isWrite, isWrite, hr, hr']
        simp only [hkinds.2 (hkeyword.resolve_left hat)]

/-- A comment inside an update, and one in front of a blank behind a hint. -/
theorem comment_kept_out :
    let a := "UPDATE t SET a = '/*'"
    let b := "+ 1"
    let hinted := "@\x7bh\x7d SELECT '*/'"
    let rest := " FROM t"
    reading .code a.toList [] = some (a.toList, .code) ∧
      reading .code hinted.toList [] = some (hinted.toList, .code) ∧ ¬ ['*', '/'] <:+: "*".toList ∧
      uncommented b.toList = some b.toList ∧ uncommented rest.toList = some rest.toList ∧
      joinsKeyword a.toList b.toList = false ∧ ReadsApart hinted.toList rest.toList ∧
      SplitsNoWord hinted.toList rest.toList ∧
      (∃ r r', classify (a ++ "/*" ++ "*" ++ "*/" ++ b) = .ok r ∧ classify (a ++ " " ++ b) = .ok r' ∧
        r.kind = r'.kind) ∧
      Agree (fun r r' => SplitsNoWord hinted.toList rest.toList → r.kind = r'.kind)
        (classify (hinted ++ "/*" ++ "*" ++ "*/" ++ rest)) (classify (hinted ++ " " ++ rest)) := by
  intro a b hinted rest
  have ha : reading .code a.toList [] = some (a.toList, .code) := by decide +kernel
  have hhinted : reading .code hinted.toList [] = some (hinted.toList, .code) := by decide +kernel
  have hbody : ¬ ['*', '/'] <:+: "*".toList := fun h => absurd h.length_le (by decide)
  have hb : uncommented b.toList = some b.toList := by decide +kernel
  have hrest : uncommented rest.toList = some rest.toList := by decide +kernel
  have hjoins : joinsKeyword a.toList b.toList = false := by decide +kernel
  have htext : rest.toList = ' ' :: "FROM t".toList := by decide +kernel
  have hlast : hinted.toList.getLast? = some '\'' := by decide +kernel
  have hsplits : SplitsNoWord hinted.toList rest.toList := by
    rw [SplitsNoWord, hlast, htext]
    rintro _ ⟨⟩ _ ⟨⟩
    rfl
  have hapart : ReadsApart hinted.toList rest.toList := by
    refine ⟨htext ▸ not_spellsAcross_blank _ _, ?_⟩
    rw [hlast, htext]
    rintro _ ⟨⟩ _ ⟨⟩
    rfl
  refine ⟨ha, hhinted, hbody, hb, hrest, hjoins, hapart, hsplits, ?_, ?_⟩
  · obtain ⟨r, r', hr, hr', hkinds⟩ :=
      ((classify_across_comment ha hbody).2 _ hb).1 (by decide +kernel)
    exact ⟨r, r', hr, hr', hkinds.2 hjoins⟩
  · exact ((classify_across_comment hhinted hbody).2 _ hrest).2.1 hapart

/-- A comment directly behind the keyword hides that a text deletes rows; one inside of it makes another
one delete rows; and behind a hint, one between two literals makes three quotes of them. -/
theorem comment_is_no_blank :
    reading .code "DELETE".toList [] = some ("DELETE".toList, .code) ∧
      classify "DELETE/**/FROM t" = .ok ⟨.unknown, "DELETEFROM t"⟩ ∧
      classify "DELETE FROM t" = .ok ⟨.update, "DELETE FROM t"⟩ ∧
      isWrite "DELETE/**/FROM t" = false ∧ isWrite "DELETE FROM t" = true ∧
      classify "DE/**/LETE FROM t" = .ok ⟨.update, "DELETE FROM t"⟩ ∧
      classify "DE LETE FROM t" = .ok ⟨.unknown, "DE LETE FROM t"⟩ ∧
      (∀ c, classify "@\x7bh\x7d SELECT ''/**/'x'" ≠ .ok c) ∧
      classify "@\x7bh\x7d SELECT '' 'x'" = .ok ⟨.query, "@\x7bh\x7d SELECT '' 'x'"⟩ := by
  have hfailed : classify "@\x7bh\x7d SELECT ''/**/'x'" =
      .error (.unclosedLiteral " SELECT '''x'") := rfl
  refine ⟨rfl, rfl, rfl, rfl, rfl, rfl, rfl, ?_, rfl⟩
  rw [hfailed]
  exact fun _ => nofun

end DeferredTx.Statement
