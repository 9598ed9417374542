import DeferredTx.Proofs.Statement.Joint

/-!
# Where a hint ends

A hint is taken to end at the last closing brace in front of the first place where a query word is
spelled, and that place may be inside of the hint.

* `SpellsQueryWord`: whether a query word is spelled anywhere in a text.
* `splitAtQuery?_eq_none_iff`: a text is cut somewhere if and only if one is.
* `behindHint?_hinted`: **what stands behind a hint**, by what the hint says.
* `opensWith_clean`: cleaning a text leaves the query word that it opens with.
* `hint_removed_unless_spelled`: **when a hint in front of a query is taken off.**
-/

namespace DeferredTx.Statement

open Text

variable {cs body : List Char}

section Spelled

/-- Whether the letters of a query word stand somewhere in a text, in any case. -/
def SpellsQueryWord (cs : List Char) : Prop :=
  ∃ w ∈ queryWords, fold w <:+: fold cs

theorem startsWithFold_iff {w : List Char} : startsWithFold w cs = true ↔ fold w <+: fold cs := by
  have hlength : (fold w).length = w.length := List.length_map ..
  rw [startsWithFold, sameFold, beq_iff_eq, List.prefix_iff_eq_take, hlength, fold, List.map_take,
    eq_comm]
  rfl

theorem spellsQuery_iff : spellsQuery cs = true ↔ ∃ w ∈ queryWords, fold w <+: fold cs := by
  simp only [spellsQuery, List.any_eq_true, startsWithFold_iff]

/-- A text is cut somewhere if and only if a query word is spelled in it. -/
theorem splitAtQuery?_eq_none_iff : splitAtQuery? cs = none ↔ ¬ SpellsQueryWord cs := by
  induction cs with
  | nil =>
    have hne : ∀ w ∈ queryWords, fold w ≠ [] := by decide
    refine iff_of_true rfl ?_
    rintro ⟨w, hw, hin⟩
    exact hne w hw (List.infix_nil.1 hin)
  | cons c r ih =>
    have hcons : SpellsQueryWord (c :: r) ↔ spellsQuery (c :: r) = true ∨ SpellsQueryWord r := by
      simp only [SpellsQueryWord, spellsQuery_iff, ← exists_or, ← and_or_left]
      exact exists_congr fun w => and_congr_right fun _ => List.infix_cons_iff
    rw [splitAtQuery?, hcons, not_or, ← ih]
    split
    · rename_i hspells
      exact iff_of_false (Option.some_ne_none _) fun h => h.1 hspells
    · rename_i hspells
      rw [Option.map_eq_none_iff]
      exact (and_iff_right hspells).symm

/-- Without letters nothing is spelled. -/
theorem not_spellsQueryWord (h : ∀ c ∈ cs, c.isAlpha = false) : ¬ SpellsQueryWord cs := by
  rintro ⟨w, hw, hin⟩
  have hletters : ∀ w ∈ queryWords, (fold w).any Char.isAlpha = true := by decide
  obtain ⟨d, hd, halpha⟩ := List.any_eq_true.1 (hletters w hw)
  obtain ⟨c, hc, rfl⟩ := List.mem_map.1 (hin.subset hd)
  rw [Char.isAlpha_toLower_eq_isAlpha, h c hc] at halpha
  cases halpha

theorem splitAtLast?_eq_none {mark : Char} (h : mark ∉ cs) : splitAtLast? mark cs = none := by
  induction cs with
  | nil => rfl
  | cons c r ih =>
    rw [splitAtLast?_cons_of_ne (Ne.symm (List.ne_of_not_mem_cons h)),
      ih (List.not_mem_of_not_mem_cons h)]
    rfl

end Spelled

section Opening

variable {q : String}

/-- What a text opens with: ASCII blanks, one of some words, and behind it the end or another such
blank. -/
structure OpensWithWord (words : List (List Char)) (cs blanks w r : List Char) : Prop where
  text_eq : cs = blanks ++ (w ++ r)
  blank : ∀ c ∈ blanks, isAsciiBlank c = true
  word : words.any (sameFold w) = true
  behind : ∀ c ∈ r.head?, isAsciiBlank c = true

theorem exists_of_opensWith {words : List (List Char)} (h : opensWith words q = true) :
    ∃ blanks w r, OpensWithWord words q.toList blanks w r := by
  unfold opensWith word? at h
  split at h
  · rename_i token rest htoken
    cases hdrop : q.toList.dropWhile isAsciiBlank with
    | nil =>
      rw [hdrop] at htoken
      cases htoken
    | cons c r =>
      rw [hdrop] at htoken
      obtain ⟨rfl, -⟩ := Prod.mk.inj (Option.some.inj htoken)
      refine ⟨q.toList.takeWhile isAsciiBlank, _,
        (c :: r).dropWhile fun x => !isAsciiBlank x, ?_, ?_, h, ?_⟩
      · rw [List.takeWhile_append_dropWhile, ← hdrop, List.takeWhile_append_dropWhile]
      · exact List.all_eq_true.1 List.all_takeWhile
      · intro d hd
        have hnot := List.head?_dropWhile_not (fun x => !isAsciiBlank x) (c :: r)
        rw [Option.mem_def.1 hd] at hnot
        simpa using hnot
  · cases h

/-- A query word is neither touched by finishing nor by scanning. -/
theorem isSolid_of_queryWord {w : List Char} (h : queryWords.any (sameFold w) = true) :
    IsSolid w ∧ w.all isPlain = true := by
  have halpha := isAlpha_of_queryWord h
  have hother : ∀ {p : Char → Bool}, (∀ c, p c = true → c.isAlpha = false) →
      ∀ c ∈ w, p c = false := by
    intro p hp c hc
    rw [← Bool.not_eq_true]
    intro hpc
    exact absurd ((halpha c hc).symm.trans (hp c hpc)) nofun
  refine ⟨⟨?_, hother fun c => not_isAlpha_of_isBlank, ?_⟩, ?_⟩
  · rintro rfl
    exact absurd h (by decide)
  · rintro c hc rfl
    exact absurd (halpha _ hc) (by decide)
  · refine List.all_eq_true.2 fun c hc => isPlain_of (halpha c hc) (by decide)

variable {words : List (List Char)} {blanks w r : List Char}

/-- The word is the first token. -/
theorem OpensWithWord.exists_word? (h : OpensWithWord words cs blanks w r) (hw : IsSolid w) :
    ∃ rest, word? isAsciiBlank cs = some (w, rest) := by
  obtain ⟨rest, hword⟩ := word?_append (y := r) hw
  have hstop : (r.takeWhile fun c => !isAsciiBlank c) = [] := by
    cases r with
    | nil => rfl
    | cons c r => exact List.takeWhile_cons_of_neg (by simp [h.behind c rfl])
  rw [hstop, List.append_nil] at hword
  refine ⟨rest, ?_⟩
  rw [h.text_eq, word?, List.dropWhile_append_of_pos h.blank]
  exact hword

/-- **Cleaning a query leaves the word that it opens with**, as its first token. -/
theorem opensWith_clean {t : String} (h : opensWith queryWords q = true) (ht : clean q = .ok t) :
    opensWith queryWords t = true ∧ firstToken? t = firstToken? q := by
  obtain ⟨blanks, w, r, hopens⟩ := exists_of_opensWith h
  obtain ⟨hsolid, hplain⟩ := isSolid_of_queryWord hopens.word
  have hblanks : blanks.all isBlank = true :=
    List.all_eq_true.2 fun c hc => isBlank_of_isAsciiBlank (hopens.blank c hc)
  have hfront : (blanks ++ w).all isPlain = true := by
    rw [List.all_append, hplain, Bool.and_true]
    exact List.all_eq_true.2 fun c hc => isPlain_of (List.all_eq_true.1 hblanks c hc) (by decide)
  obtain ⟨kept, hkept, rfl⟩ := clean_eq_ok_iff.1 ht
  rw [uncommented, hopens.text_eq, ← List.append_assoc, scan_of_plain hfront] at hkept
  obtain ⟨x, hx, rfl⟩ := Option.map_eq_some_iff.1 hkept
  -- the blank behind the word, if there is one, is kept
  have hhead : ∀ c ∈ x.head?, isAsciiBlank c = true := by
    cases r with
    | nil =>
      cases hx
      rintro _ ⟨⟩
    | cons c r =>
      have hc : isAsciiBlank c = true := hopens.behind c rfl
      have hstay : advance .code c r = some (true, .code) :=
        advance_code_of_isPlain (isPlain_of hc (by decide)) r
      rw [scan_cons_kept hstay] at hx
      obtain ⟨x, -, rfl⟩ := Option.map_eq_some_iff.1 hx
      rintro _ ⟨⟩
      exact hc
  obtain ⟨y, hy, hfinish⟩ := finish_append hblanks hsolid x
  have hcleaned : OpensWithWord queryWords (String.ofList (finish (blanks ++ w ++ x))).toList [] w y :=
    ⟨by rw [String.toList_ofList, hfinish]; rfl, List.forall_mem_nil _, hopens.word,
      fun c hc => hhead c (head?_of_isPrefix hy c hc)⟩
  obtain ⟨rest, hrest⟩ := hcleaned.exists_word? hsolid
  obtain ⟨rest', hrest'⟩ := hopens.exists_word? hsolid
  constructor
  · rw [opensWith, hrest]
    exact hopens.word
  · rw [firstToken?, firstToken?, hrest, hrest']
    rfl

end Opening

section Hint

variable {q : List Char}

/-- Blanks behind a closing brace are no letters. -/
theorem not_isAlpha_of_closing {blanks : List Char} (h : ∀ c ∈ blanks, isAsciiBlank c = true) :
    ∀ c ∈ '\x7d' :: blanks, c.isAlpha = false :=
  List.forall_mem_cons.2 ⟨rfl, fun c hc => not_isAlpha_of_isBlank (isBlank_of_isAsciiBlank (h c hc))⟩

/-- A text that opens with a query word is cut in front of the word. -/
theorem OpensWithWord.splitAtQuery? {blanks w r : List Char}
    (h : OpensWithWord queryWords q blanks w r) : splitAtQuery? (w ++ r) = some ([], w ++ r) := by
  have hspells : spellsQuery (w ++ r) = true := by
    obtain ⟨k, hk, hsame⟩ := List.any_eq_true.1 h.word
    refine spellsQuery_iff.2 ⟨k, hk, ?_⟩
    rw [fold_append, eq_of_beq hsame]
    exact List.prefix_append _ _
  have hne : w ++ r ≠ [] := by simp [(isSolid_of_queryWord h.word).1.ne_nil]
  obtain ⟨c, s, hcons⟩ := List.exists_cons_of_ne_nil hne
  rw [hcons] at hspells ⊢
  rw [Statement.splitAtQuery?, if_pos hspells]

/-- **What stands behind a hint** in front of a query: the query, unless the hint spells a query word
itself. In that case there is no hint. -/
theorem behindHint?_hinted {blanks w r : List Char} (hbody : '\x7d' ∉ body)
    (hq : OpensWithWord queryWords q blanks w r) :
    (¬ SpellsQueryWord body → behindHint? ('@' :: '\x7b' :: (body ++ '\x7d' :: q)) = some q) ∧
      (SpellsQueryWord body → behindHint? ('@' :: '\x7b' :: (body ++ '\x7d' :: q)) = none) := by
  have hopen : ∀ z, splitAtQuery? ('@' :: '\x7b' :: z) =
      (splitAtQuery? z).map fun p => ('@' :: '\x7b' :: p.1, p.2) := by
    intro z
    have hsigns : ¬ SpellsAcross ['@', '\x7b'] z :=
      not_spellsAcross_of_last fun p hp => by cases hp; rfl
    have happend := splitAtQuery?_append hsigns
    rwa [show splitAtQuery? ['@', '\x7b'] = none from rfl] at happend
  have hclose : ∀ z, ¬ SpellsAcross body ('\x7d' :: z) := fun z =>
    not_spellsAcross_of_head fun n hn => by cases hn; rfl
  unfold behindHint?
  constructor
  · intro hspells
    -- the first query word is the one that the query opens with
    have hletters := not_isAlpha_of_closing hq.blank
    have hnone : splitAtQuery? (body ++ '\x7d' :: blanks) = none := by
      rw [splitAtQuery?_append (hclose blanks), splitAtQuery?_eq_none_iff.2 hspells,
        splitAtQuery?_eq_none_iff.2 (not_spellsQueryWord hletters)]
      rfl
    have hacross : ¬ SpellsAcross (body ++ '\x7d' :: blanks) (w ++ r) := by
      refine not_spellsAcross_of_last fun p hp => hletters p (List.mem_of_getLast? ?_)
      rwa [List.getLast?_append_of_ne_nil body (List.cons_ne_nil _ _)] at hp
    have hcut : splitAtQuery? (body ++ '\x7d' :: q) =
        some (body ++ '\x7d' :: blanks, w ++ r) := by
      have happend := splitAtQuery?_append hacross
      rw [hnone, hq.splitAtQuery?] at happend
      simpa [hq.text_eq] using happend
    have hlast : splitAtLast? '\x7d' blanks = none := by
      refine splitAtLast?_eq_none fun hmem => ?_
      exact absurd (hq.blank _ hmem) (by decide)
    have hhint := splitAtLast?_mark '\x7d' ('@' :: '\x7b' :: body) blanks
    rw [hlast] at hhint
    simp only [List.cons_append, Option.map_none, Option.getD_none] at hhint
    rw [hopen, hcut]
    simp only [Option.map_some, hhint]
    rw [if_pos (by simp), hq.text_eq]
  · intro hspells
    obtain ⟨⟨head, query⟩, hcut⟩ :=
      Option.ne_none_iff_exists'.1 (mt splitAtQuery?_eq_none_iff.1 (not_not.2 hspells))
    have hhead : '\x7d' ∉ '@' :: '\x7b' :: head := by
      have hnot : '\x7d' ∉ head := by
        intro hmem
        rw [splitAtQuery?_eq_some hcut] at hbody
        exact hbody (List.mem_append_left query hmem)
      simp [hnot]
    rw [hopen, splitAtQuery?_append (hclose q), hcut]
    simp only [Option.map_some, Option.some_or, splitAtLast?_eq_none hhead]

/-- A hint in front of a query, as it is written. -/
def hinted (body q : String) : String :=
  "@\x7b" ++ body ++ "\x7d" ++ q

theorem toList_hinted (body q : String) :
    (hinted body q).toList = '@' :: '\x7b' :: (body.toList ++ '\x7d' :: q.toList) := by
  simp [hinted]

/-- **When a hint in front of a query is taken off.** Let the hint say anything without a closing
brace, and let a query word be the first token of the text behind it.

* If no query word is spelled in the hint, taking the hint off gives the cleaned text behind it. If that
  can be cleaned, its first token stays, and it is a query.
* If one is, the text stays as it is, and is no query. -/
theorem hint_removed_unless_spelled {body q : String} (hbody : '\x7d' ∉ body.toList)
    (hq : opensWith queryWords q = true) :
    (¬ SpellsQueryWord body.toList → stripHint (hinted body q) = clean q ∧
        ∀ t, clean q = .ok t → firstToken? t = firstToken? q ∧ isQuery (hinted body q) = .ok true) ∧
      (SpellsQueryWord body.toList →
        stripHint (hinted body q) = .ok (hinted body q) ∧ isQuery (hinted body q) = .ok false) := by
  obtain ⟨blanks, w, r, hopens⟩ := exists_of_opensWith hq
  obtain ⟨hremoved, hleft⟩ := behindHint?_hinted hbody hopens
  have hat : isQuery (hinted body q) = (stripHint (hinted body q)).map (opensWith queryWords) := by
    rw [isQuery, if_pos (by rw [toList_hinted]; rfl)]
  constructor
  · intro hspells
    have hstrip : stripHint (hinted body q) = clean q := by
      rw [stripHint, toList_hinted, hremoved hspells]
      exact congrArg clean String.ofList_toList
    refine ⟨hstrip, fun t ht => ?_⟩
    obtain ⟨hquery, htoken⟩ := opensWith_clean hq ht
    rw [hat, hstrip, ht, Except.map, hquery]
    exact ⟨htoken, rfl⟩
  · intro hspells
    have hstrip : stripHint (hinted body q) = .ok (hinted body q) := by
      rw [stripHint, toList_hinted, hleft hspells]
    refine ⟨hstrip, ?_⟩
    rw [hat, hstrip, Except.map, ← String.ofList_toList (s := hinted body q), toList_hinted,
      not_opensWith_of_at]

/-- A hint with a quote that is not closed, and what looks like a comment. -/
theorem hint_with_quote_removed :
    let body := "FORCE_INDEX='a -- b"
    let q := "\n select * -- all\n;"
    '\x7d' ∉ body.toList ∧ opensWith queryWords q = true ∧ ¬ SpellsQueryWord body.toList ∧
      clean q = .ok "select *" ∧ stripHint (hinted body q) = clean q ∧
      firstToken? "select *" = firstToken? q ∧ isQuery (hinted body q) = .ok true := by
  intro body q
  have hbody : '\x7d' ∉ body.toList := by decide
  have hq : opensWith queryWords q = true := by decide +kernel
  have hspells : ¬ SpellsQueryWord body.toList := splitAtQuery?_eq_none_iff.1 (by decide +kernel)
  have hclean : clean q = .ok "select *" := by decide +kernel
  obtain ⟨hstrip, hquery⟩ := (hint_removed_unless_spelled hbody hq).1 hspells
  exact ⟨hbody, hq, hspells, hclean, hstrip, hquery _ hclean⟩

/-- A hint that holds a query word is left in place, and the query behind it is none. -/
theorem query_word_keeps_hint :
    let body := "ORDER=WITH TIES"
    let q := " SELECT 1"
    '\x7b' ∉ body.toList ∧ '\x7d' ∉ body.toList ∧ opensWith queryWords q = true ∧
      clean q = .ok "SELECT 1" ∧ firstToken? "SELECT 1" = firstToken? q ∧
      stripHint "@\x7bORDER=WITH TIES\x7d SELECT 1" = .ok "@\x7bORDER=WITH TIES\x7d SELECT 1" ∧
      stripHint (hinted body q) ≠ clean q ∧ isQuery (hinted body q) = .ok false := by
  decide +kernel

end Hint
end DeferredTx.Statement
