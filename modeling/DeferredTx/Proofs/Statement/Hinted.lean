import DeferredTx.Proofs.Statement.LetterCase
import DeferredTx.Proofs.Statement.Seam
import DeferredTx.Statement.Hint

/-!
# A blank in a text behind a hint

The text behind a hint is looked for by the letters of query words, wherever they stand, and is scanned
once more from its own start.

* `SpellsAcross`, `sticks`: what the characters at a joint spell together.
* `splitAtQuery?_append`, `splitAtLast?_append`: a text in two parts is cut in one of them.
* `behindHint?_spaced`: **a blank at a joint** stays where it is in the text behind the hint.
* `scan_spaced`: what is kept of that text when it is scanned.
-/

namespace DeferredTx.Statement

open Text

variable {u z : List Char}

/-- Whether the letters of a query word stand at the end of one text and at the start of another. -/
def SpellsAcross (u z : List Char) : Prop :=
  ∃ s t, s ≠ [] ∧ t ≠ [] ∧ s <:+ u ∧ t <+: z ∧ queryWords.any (sameFold (s ++ t)) = true

theorem SpellsAcross.mono {u' z' : List Char} (h : SpellsAcross u z) (hu : u <:+ u') (hz : z <+: z') :
    SpellsAcross u' z' := by
  obtain ⟨s, t, hs, ht, hsu, htz, hword⟩ := h
  exact ⟨s, t, hs, ht, hsu.trans hu, htz.trans hz, hword⟩

/-- Words that are made of letters are spelled by letters. -/
theorem isAlpha_of_sameFold {words : List (List Char)} {s : List Char}
    (hwords : ∀ k ∈ words, (fold k).all Char.isAlpha = true) (h : words.any (sameFold s) = true) :
    ∀ c ∈ s, c.isAlpha = true := by
  obtain ⟨k, hk, hsame⟩ := List.any_eq_true.1 h
  intro c hc
  rw [← Char.isAlpha_toLower_eq_isAlpha]
  exact List.all_eq_true.1 (hwords k hk) _ (eq_of_beq hsame ▸ List.mem_map_of_mem hc)

theorem isAlpha_of_queryWord {s : List Char} (h : queryWords.any (sameFold s) = true) :
    ∀ c ∈ s, c.isAlpha = true :=
  isAlpha_of_sameFold (by decide) h

/-- No word is spelled across a joint with a character on one side that is no letter. -/
theorem not_spellsAcross_of_head (h : ∀ n ∈ z.head?, n.isAlpha = false) : ¬ SpellsAcross u z := by
  rintro ⟨s, t, -, ht, -, htz, hword⟩
  obtain ⟨n, t, rfl⟩ := List.exists_cons_of_ne_nil ht
  obtain ⟨z, rfl⟩ := htz
  have halpha := isAlpha_of_queryWord hword n (by simp)
  exact absurd (halpha.symm.trans (h n rfl)) nofun

theorem not_spellsAcross_of_last (h : ∀ p ∈ u.getLast?, p.isAlpha = false) : ¬ SpellsAcross u z := by
  rintro ⟨s, t, hs, -, ⟨u, rfl⟩, -, hword⟩
  have hlast : s.getLast hs ∈ (u ++ s).getLast? := by
    rw [List.getLast?_append_of_ne_nil u hs, List.getLast?_eq_some_getLast hs]
    rfl
  have halpha := isAlpha_of_queryWord hword _ (List.mem_append_left t (List.getLast_mem hs))
  exact absurd (halpha.symm.trans (h _ hlast)) nofun

theorem not_spellsAcross_blank (u z : List Char) : ¬ SpellsAcross u (' ' :: z) :=
  not_spellsAcross_of_head fun n hn => by
    obtain rfl : ' ' = n := Option.some.inj hn
    rfl

theorem spellsQuery_blank (z : List Char) : spellsQuery (' ' :: z) = false := by
  simp [spellsQuery, queryWords, startsWithFold, sameFold, fold]

theorem splitAtQuery?_blank (z : List Char) :
    splitAtQuery? (' ' :: z) = (splitAtQuery? z).map fun p => (' ' :: p.1, p.2) := by
  rw [splitAtQuery?, if_neg (by simp [spellsQuery_blank])]

theorem spellsQuery_append (hu : u ≠ []) (h : ¬ SpellsAcross u z) :
    spellsQuery (u ++ z) = spellsQuery u := by
  rw [Bool.eq_iff_iff, spellsQuery, spellsQuery, List.any_eq_true, List.any_eq_true]
  refine exists_congr fun k => and_congr_right fun hk => ?_
  by_cases hlength : k.length ≤ u.length
  · rw [startsWithFold, startsWithFold, List.take_append_of_le_length hlength]
  · have hall : u.take k.length = u := List.take_of_length_le (by omega)
    have hshort : ¬ startsWithFold k u = true := by
      intro hsame
      have hsum := congrArg List.length (eq_of_beq hsame)
      simp only [hall, fold, List.length_map] at hsum
      omega
    -- a word that is longer than the first part is spelled across the joint
    refine iff_of_false (fun hsame => ?_) hshort
    rw [startsWithFold, List.take_append, hall] at hsame
    by_cases hz : z.take (k.length - u.length) = []
    · rw [hz, List.append_nil] at hsame
      exact hshort (by rwa [startsWithFold, hall])
    · exact h ⟨u, _, hu, hz, List.suffix_rfl, List.take_prefix _ _, List.any_eq_true.2 ⟨k, hk, hsame⟩⟩

/-- **A text in two parts is cut at a query word of the first part, or else of the second.** -/
theorem splitAtQuery?_append (h : ¬ SpellsAcross u z) : splitAtQuery? (u ++ z) =
    ((splitAtQuery? u).map fun p => (p.1, p.2 ++ z)).or
      ((splitAtQuery? z).map fun p => (u ++ p.1, p.2)) := by
  induction u with
  | nil => simp [splitAtQuery?]
  | cons c u ih =>
    have hrest : ¬ SpellsAcross u z := fun hin => h (hin.mono (List.suffix_cons c u) List.prefix_rfl)
    have hspells : spellsQuery (c :: (u ++ z)) = spellsQuery (c :: u) :=
      spellsQuery_append (List.cons_ne_nil c u) h
    rw [List.cons_append, splitAtQuery?, hspells, splitAtQuery?, ih hrest]
    split
    · rfl
    · cases splitAtQuery? u <;> cases splitAtQuery? z <;> rfl

theorem splitAtQuery?_eq_some {cs head query : List Char} (h : splitAtQuery? cs = some (head, query)) :
    cs = head ++ query := by
  induction cs generalizing head with
  | nil => cases h
  | cons c cs ih =>
    rw [splitAtQuery?] at h
    split at h
    · cases h
      rfl
    · obtain ⟨p, hp, heq⟩ := Option.map_eq_some_iff.1 h
      cases heq
      rw [List.cons_append, ← ih hp]

theorem splitAtLast?_cons_of_ne {mark c : Char} (h : c ≠ mark) (cs : List Char) :
    splitAtLast? mark (c :: cs) = (splitAtLast? mark cs).map fun p => (c :: p.1, p.2) := by
  rw [splitAtLast?, if_neg h]
  cases splitAtLast? mark cs <;> rfl

theorem splitAtLast?_append (mark : Char) (u z : List Char) : splitAtLast? mark (u ++ z) =
    ((splitAtLast? mark z).map fun p => (u ++ p.1, p.2)).or
      ((splitAtLast? mark u).map fun p => (p.1, p.2 ++ z)) := by
  induction u with
  | nil =>
    cases h : splitAtLast? mark z <;> simp [h, splitAtLast?]
  | cons c u ih =>
    rw [List.cons_append, splitAtLast?, ih, splitAtLast?]
    cases splitAtLast? mark z with
    | some p => rfl
    | none =>
      cases splitAtLast? mark u with
      | some p => rfl
      | none =>
        simp only [Option.map_none, Option.or_none]
        split <;> rfl

theorem splitAtLast?_eq_some {mark : Char} {cs hint gap : List Char}
    (h : splitAtLast? mark cs = some (hint, gap)) : cs = hint ++ mark :: gap := by
  induction cs generalizing hint with
  | nil => cases h
  | cons c cs ih =>
    rw [splitAtLast?] at h
    split at h
    · rename_i p hp
      cases h
      rw [ih hp, List.cons_append]
    · split at h
      · rename_i hc
        cases h
        rw [hc, List.nil_append]
      · cases h

theorem splitAtLast?_suffix {mark : Char} {cs hint gap : List Char}
    (h : splitAtLast? mark cs = some (hint, gap)) : gap <:+ cs := by
  rw [splitAtLast?_eq_some h]
  exact (List.suffix_cons mark gap).trans (List.suffix_append _ _)

/-- The text behind a hint is behind a closing brace. -/
theorem behindHint?_eq_some {cs rest : List Char} (h : behindHint? cs = some rest) :
    ∃ hint, cs = hint ++ '\x7d' :: rest := by
  unfold behindHint? at h
  split at h
  · cases h
  · rename_i hquery
    split at h
    · cases h
    · rename_i hlast
      split at h
      · cases h
        rw [splitAtQuery?_eq_some hquery, splitAtLast?_eq_some hlast]
        exact ⟨_, List.append_assoc ..⟩
      · cases h

/-- **A blank between two parts of a text** is not in the text behind the hint, or stays between the same
two parts there. -/
theorem behindHint?_spaced (h : ¬ SpellsAcross u z) :
    behindHint? (u ++ ' ' :: z) = behindHint? (u ++ z) ∨
      ∃ r, r <:+ u ∧ behindHint? (u ++ z) = some (r ++ z) ∧
        behindHint? (u ++ ' ' :: z) = some (r ++ ' ' :: z) := by
  have hlast := @splitAtLast?_cons_of_ne '\x7d' ' ' (by decide)
  unfold behindHint?
  rw [splitAtQuery?_append h, splitAtQuery?_append (not_spellsAcross_blank u z), splitAtQuery?_blank]
  cases hu : splitAtQuery? u with
  | some p =>
    -- the query word stands in the first part, and so does the hint
    obtain ⟨head, query⟩ := p
    have htext := splitAtQuery?_eq_some hu
    simp only [Option.map_some, Option.some_or]
    cases hcut : splitAtLast? '\x7d' head with
    | none => exact Or.inl rfl
    | some q =>
      obtain ⟨hint, gap⟩ := q
      by_cases hopen : '\x7b' ∈ hint
      · simp only [if_pos hopen]
        obtain ⟨front, hfront⟩ := splitAtLast?_suffix hcut
        refine Or.inr ⟨gap ++ query, ⟨front, ?_⟩, by simp, by simp⟩
        rw [htext, ← hfront, List.append_assoc]
      · left
        simp only [if_neg hopen]
  | none =>
    cases hz : splitAtQuery? z with
    | none => exact Or.inl rfl
    | some p =>
      obtain ⟨head, query⟩ := p
      have htext := splitAtQuery?_eq_some hz
      simp only [Option.map_some, Option.map_none, Option.none_or, splitAtLast?_append, hlast]
      cases splitAtLast? '\x7d' head with
      | some q =>
        -- the hint goes on in the second part, and the blank is in it
        left
        simp
      | none =>
        cases hcut : splitAtLast? '\x7d' u with
        | none => exact Or.inl rfl
        | some q =>
          obtain ⟨hint, gap⟩ := q
          by_cases hopen : '\x7b' ∈ hint
          · simp only [Option.map_some, Option.map_none, Option.none_or, if_pos hopen]
            exact Or.inr ⟨gap, splitAtLast?_suffix hcut, by simp [htext], by simp [htext]⟩
          · left
            simp only [Option.map_some, Option.map_none, Option.none_or, if_neg hopen]

/-- Whether two characters, one behind the other, are read in another way than with a blank between them:
they open or close something together, or the first one protects the second. -/
def sticks (p n : Char) : Bool :=
  completes p n || p == '*' && n == '/' || p == '\\' && !isBlank n

section LastStep

variable {m next : Mode} {p : Char} {kept : List Char}

/-- The last step in reading a part of a text. -/
theorem reading_concat {r : List Char} (h : reading m (r ++ [p]) [] = some (kept, next)) :
    ∃ kept' m' k, reading m r [p] = some (kept', m') ∧ advance m' p [] = some (k, next) ∧
      kept = kept' ++ if k then [p] else [] := by
  rw [reading_append, List.append_nil] at h
  obtain ⟨⟨kept', m'⟩, hread, hstep⟩ := Option.bind_eq_some_iff.1 h
  obtain ⟨⟨last, _⟩, hlast, heq⟩ := Option.map_eq_some_iff.1 hstep
  cases heq
  obtain ⟨k, m'', rest, hadvance, hrest, rfl⟩ := reading_cons_eq_some hlast
  cases hrest
  exact ⟨kept', m', k, hread, by simpa using hadvance, rfl⟩

/-- Only a backslash protects what comes next. -/
theorem eq_backslash_of_advance {q : Char} {triple k : Bool} {rest : List Char}
    (h : advance m p rest = some (k, .literal q triple true)) : p = '\\' := by
  unfold advance at h
  repeat' split at h
  all_goals cases h
  assumption

/-- Outside of comments every character is kept, but for the slash that ends a comment. -/
theorem kept_of_advance {k : Bool} (hm : m.Expects [p]) (hnext : next.inComment = false)
    (hslash : p ≠ '/') (h : advance m p [] = some (k, next)) : k = true := by
  cases k with
  | true => rfl
  | false =>
    unfold advance at h
    repeat' split at h
    all_goals cases h
    all_goals try cases hnext
    exact absurd (List.cons_prefix_cons.1 hm).1.symm hslash

end LastStep

/-- What is protected by a backslash in a literal does not matter if it is blank. -/
theorem scan_literal_of_blank {q : Char} (hq : isQuote q = true) (triple : Bool)
    (hz : ∀ n ∈ z.head?, isBlank n = true) :
    scan (.literal q triple true) z = scan (.literal q triple false) z := by
  cases z with
  | nil => rfl
  | cons n z =>
    have hblank : isBlank n = true := hz n rfl
    have hback : n ≠ '\\' := by
      rintro rfl
      exact absurd hblank (by decide)
    have hquote : n ≠ q := by
      rintro rfl
      simp only [isQuote, Bool.or_eq_true, beq_iff_eq] at hq
      rcases hq with (rfl | rfl) | rfl <;> exact absurd hblank (by decide)
    simp [scan, advance, hback, hquote]

/-- Outside of comments a space is kept, and leaves everything but a backslash in force. -/
theorem scan_space {m : Mode} (hm : m.Expects []) (hcomment : m.inComment = false)
    (hz : ∀ q triple, m = .literal q triple true → ∀ n ∈ z.head?, isBlank n = true) :
    scan m (' ' :: z) = (scan m z).map (' ' :: ·) := by
  rcases hm.cases_outside hcomment with rfl | ⟨q, triple, escaped, rfl, hq⟩
  · exact scan_cons_kept rfl
  · have hquote : ' ' ≠ q := by
      rintro rfl
      cases hq
    have hadvance : advance (.literal q triple escaped) ' ' z = some (true, .literal q triple false) := by
      cases escaped <;> simp [advance, hquote, isLineBreak]
    rw [scan_cons_kept hadvance]
    cases escaped with
    | false => rfl
    | true => rw [scan_literal_of_blank hq triple (hz q triple rfl)]

/-- Outside of comments a blank is kept. -/
theorem kept_of_blank {m next : Mode} {n : Char} {rest : List Char} {k : Bool} (hm : m.Expects [])
    (hcomment : m.inComment = false) (hn : isBlank n = true) (h : advance m n rest = some (k, next)) :
    k = true := by
  rcases hm.cases_outside hcomment with rfl | ⟨q, triple, escaped, rfl, -⟩
  · rw [advance_code_of_isPlain (isPlain_of hn (by decide))] at h
    cases h
    rfl
  · simp only [advance] at h
    repeat' split at h
    all_goals cases h
    all_goals rfl

/-- **A blank at a joint** is not kept, if it stands in a comment, or it is all that is kept in addition. -/
theorem scan_spaced (h : ∀ p ∈ u.getLast?, ∀ n ∈ z.head?, sticks p n = false) :
    scan .code (u ++ ' ' :: z) = scan .code (u ++ z) ∨
      ∃ k m, reading .code u [] = some (k, m) ∧ m.inComment = false ∧
        scan .code (u ++ z) = (scan m z).map (k ++ ·) ∧
        scan .code (u ++ ' ' :: z) = (scan m z).map (k ++ ' ' :: ·) := by
  have hcode : Mode.code.Expects u := trivial
  have hjoined : reading .code u z = reading .code u [] := by
    refine reading_of_seam hcode (fun p hp n hn => ?_) fun hstar hslash => ?_
    · have hsticks := h p hp n hn
      simp only [sticks, Bool.or_eq_false_iff] at hsticks
      exact hsticks.1.1
    · exact absurd (h '*' hstar '/' hslash) (by decide)
  have hspaced : reading .code u (' ' :: z) = reading .code u [] :=
    reading_of_seam hcode (fun p _ => completes_of_harmless (harmless_cons z) p) fun _ => nofun
  rw [scan_append, scan_append, hjoined, hspaced]
  cases hread : reading .code u [] with
  | none => exact Or.inl rfl
  | some r =>
    obtain ⟨k, m⟩ := r
    have hm : m.Expects [] := Mode.Expects.reading (by simpa using hcode) hread
    simp only [Option.bind_some]
    cases hcomment : m.inComment with
    | true =>
      -- the comment that is open takes the blank in
      left
      rcases hm.cases_nil with rfl | rfl | rfl | ⟨q, triple, escaped, rfl, -⟩
      · cases hcomment
      · rw [scan_cons_dropped rfl]
      · rw [scan_cons_dropped rfl]
      · cases hcomment
    | false =>
      refine Or.inr ⟨k, m, rfl, hcomment, rfl, ?_⟩
      rw [scan_space hm hcomment, Option.map_map]
      · rfl
      · rintro q triple rfl n hn
        -- the first part ends in the backslash
        have hne : u ≠ [] := by
          rintro rfl
          cases hread
        obtain ⟨r, p, rfl⟩ : ∃ r p, u = r ++ [p] := ⟨_, _, (List.dropLast_concat_getLast hne).symm⟩
        obtain ⟨_, _, _, -, hadvance, -⟩ := reading_concat hread
        have hlast : p ∈ (r ++ [p]).getLast? := by simp
        have hsticks := h p hlast n hn
        rw [eq_backslash_of_advance hadvance] at hsticks
        simp only [sticks, Bool.or_eq_false_iff, beq_self_eq_true, Bool.true_and] at hsticks
        simpa using hsticks.2

end DeferredTx.Statement
