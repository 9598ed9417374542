import DeferredTx.Proofs.Statement.ByPieces

/-!
# Seams of a text

The scanner looks at most two characters ahead, so a part of a text is read in the same way whatever
follows it, unless the characters on both sides of the seam spell an opening together.

* `Mode.Expects`: what stands behind a place of a text, going by what the scanner has seen of it.
* `scan_cons_eq_some`, `reading_cons_eq_some`: one step of the scanner.
* `completes`: the pairs of characters that spell an opening.
* `reading_of_seam`: **a part is read as if nothing followed it**, if no pair is made at the seam.
* `scan_closed`: a part that leaves nothing open, in front of a text that does not matter to it.
* `scan_block`: **a block comment leaves nothing**, wherever it stands.
-/

namespace DeferredTx.Statement

open Text

/-- Whether the text behind a place is as the scanner has seen it before it got there. -/
def Mode.Expects : Mode → List Char → Prop
  | .blockOpening, rest => ['*'] <+: rest
  | .blockClosing, rest => ['/'] <+: rest
  | .literal q .., _ => isQuote q = true
  | .tripleOpening q more, rest => isQuote q = true ∧ List.replicate (more + 1) q <+: rest
  | .tripleClosing more, rest => ∃ q, List.replicate (more + 1) q <+: rest
  | _, _ => True

/-- Whether a mode is inside a comment. -/
def Mode.inComment : Mode → Bool
  | .lineComment | .blockOpening | .blockComment | .blockClosing => true
  | _ => false

theorem isPrefix_of_head? {x : Char} {s : List Char} (h : s.head? = some x) : [x] <+: s := by
  obtain ⟨t, rfl⟩ := List.head?_eq_some_iff.1 h
  exact ⟨t, rfl⟩

theorem isPrefix_of_take {s x : List Char} {n : Nat} (h : s.take n = x) : x <+: s :=
  h ▸ List.take_prefix n s

/-- **The scanner finds what it expects.** -/
theorem Mode.Expects.advance {m next : Mode} {c : Char} {rest : List Char} {kept : Bool}
    (hm : m.Expects (c :: rest)) (h : advance m c rest = some (kept, next)) : next.Expects rest := by
  have hdrop : ∀ {n : Nat} {q : Char}, List.replicate (n + 1) q <+: c :: rest →
      List.replicate n q <+: rest := by
    intro n q hq
    rw [List.replicate_succ] at hq
    exact (List.cons_prefix_cons.1 hq).2
  unfold Statement.advance at h
  split at h
  case h_1 =>
    split at h
    · cases h
      trivial
    split at h
    · rename_i hstar
      cases h
      exact isPrefix_of_head? hstar.2
    split at h
    · rename_i hquote
      split at h
      · rename_i htwo
        cases h
        exact ⟨hquote, isPrefix_of_take htwo⟩
      · cases h
        exact hquote
    · cases h
      trivial
  case h_2 =>
    split at h <;> (cases h; trivial)
  case h_3 =>
    cases h
    trivial
  case h_4 =>
    split at h
    · rename_i hslash
      cases h
      exact isPrefix_of_head? hslash.2
    · cases h
      trivial
  case h_5 =>
    cases h
    trivial
  case h_6 =>
    cases h
    exact ⟨hm.1, hdrop hm.2⟩
  case h_7 =>
    cases h
    exact hm.1
  case h_8 =>
    cases h
    exact hm.imp fun q hq => hdrop hq
  case h_9 =>
    cases h
    trivial
  case h_10 =>
    have hquote : isQuote _ = true := hm
    split at h
    · cases h
    split at h
    · cases h
      exact hquote
    split at h
    · cases h
      exact hquote
    split at h
    · split at h
      · cases h
        trivial
      split at h
      · rename_i htwo
        cases h
        exact ⟨_, isPrefix_of_take htwo⟩
      · cases h
        exact hquote
    · cases h
      exact hquote

/-- The first step of a scan that ends well. -/
theorem scan_cons_eq_some {m : Mode} {c : Char} {cs kept : List Char}
    (h : scan m (c :: cs) = some kept) : ∃ keep m' kept', advance m c cs = some (keep, m') ∧
      scan m' cs = some kept' ∧ kept = if keep then c :: kept' else kept' := by
  rw [scan] at h
  split at h
  · cases h
  · rename_i keep m' hadvance
    obtain ⟨kept', hkept, rfl⟩ := Option.map_eq_some_iff.1 h
    exact ⟨keep, m', kept', hadvance, hkept, rfl⟩

/-- The first step in reading a part of a text. -/
theorem reading_cons_eq_some {m next : Mode} {c : Char} {part after kept : List Char}
    (h : reading m (c :: part) after = some (kept, next)) :
    ∃ keep m' kept', advance m c (part ++ after) = some (keep, m') ∧
      reading m' part after = some (kept', next) ∧ kept = if keep then c :: kept' else kept' := by
  rw [reading] at h
  split at h
  · cases h
  · rename_i keep m' hadvance
    obtain ⟨⟨kept', _⟩, hkept, heq⟩ := Option.map_eq_some_iff.1 h
    cases heq
    exact ⟨keep, m', kept', hadvance, hkept, rfl⟩

theorem Mode.Expects.reading {m next : Mode} {part after kept : List Char}
    (hm : m.Expects (part ++ after)) (h : reading m part after = some (kept, next)) :
    next.Expects after := by
  induction part generalizing m kept with
  | nil =>
    cases h
    exact hm
  | cons c part ih =>
    obtain ⟨_, m', kept', hadvance, hkept, -⟩ := reading_cons_eq_some h
    exact ih (hm.advance hadvance) hkept

/-- At the end of a part no character is expected. -/
theorem Mode.Expects.cases_nil {m : Mode} (h : m.Expects []) :
    m = .code ∨ m = .lineComment ∨ m = .blockComment ∨
      ∃ q triple escaped, m = .literal q triple escaped ∧ isQuote q = true := by
  cases m with
  | code => exact Or.inl rfl
  | lineComment => exact Or.inr (Or.inl rfl)
  | blockComment => exact Or.inr (Or.inr (Or.inl rfl))
  | literal q triple escaped => exact Or.inr (Or.inr (Or.inr ⟨q, triple, escaped, rfl, h⟩))
  | blockOpening | blockClosing => exact absurd (List.prefix_nil.1 h) (List.cons_ne_nil _ _)
  | tripleOpening q more => exact absurd (List.prefix_nil.1 h.2) (by simp)
  | tripleClosing more =>
    obtain ⟨q, hq⟩ := h
    exact absurd (List.prefix_nil.1 hq) (by simp)

/-- Nor is anything but a literal open, if no comment is. -/
theorem Mode.Expects.cases_outside {m : Mode} (h : m.Expects []) (hcomment : m.inComment = false) :
    m = .code ∨ ∃ q triple escaped, m = .literal q triple escaped ∧ isQuote q = true := by
  rcases h.cases_nil with rfl | rfl | rfl | hliteral
  · exact Or.inl rfl
  · cases hcomment
  · cases hcomment
  · exact Or.inr hliteral

/-- Whether two characters spell what opens a comment, or two of three equal quotes. -/
def completes (p n : Char) : Bool :=
  p == '-' && n == '-' || p == '/' && n == '*' || isQuote p && n == p

/-- What the scanner reads of a character depends on whether these stand behind it. -/
theorem advance_congr {m : Mode} {c : Char} {s t : List Char} (hm : m.Expects (c :: s))
    (hdash : c = '-' → (s.head? = some '-' ↔ t.head? = some '-'))
    (hstar : c = '/' → (s.head? = some '*' ↔ t.head? = some '*'))
    (hslash : m = .blockComment → c = '*' → (s.head? = some '/' ↔ t.head? = some '/'))
    (htwo : isQuote c = true → (s.take 2 = [c, c] ↔ t.take 2 = [c, c])) :
    advance m c s = advance m c t := by
  unfold advance
  split
  case h_1 =>
    have hline : (c = '#' ∨ c = '-' ∧ s.head? = some '-') ↔
        (c = '#' ∨ c = '-' ∧ t.head? = some '-') := or_congr_right (and_congr_right hdash)
    have hblock : (c = '/' ∧ s.head? = some '*') ↔ (c = '/' ∧ t.head? = some '*') :=
      and_congr_right hstar
    simp only [hline, hblock]
    by_cases hquote : isQuote c = true
    · simp only [htwo hquote]
    · simp only [hquote, Bool.false_eq_true, if_false]
  case h_4 =>
    have hclose : (c = '*' ∧ s.head? = some '/') ↔ (c = '*' ∧ t.head? = some '/') :=
      and_congr_right (hslash rfl)
    simp only [hclose]
  case h_10 q triple escaped =>
    have hquote : isQuote q = true := hm
    by_cases hc : c = q
    · subst hc
      simp only [htwo hquote]
    · simp only [if_neg hc]
  all_goals rfl

/-- At the last character of a part, nothing is completed by what follows. -/
theorem advance_of_seam {m : Mode} {c : Char} {after : List Char} (hm : m.Expects [c])
    (hseam : ∀ n ∈ after.head?, completes c n = false)
    (hend : m = .blockComment → c = '*' → after.head? ≠ some '/') :
    advance m c [] = advance m c after := by
  have hnot : ∀ {n : Char}, completes c n = true → after.head? ≠ some n := by
    intro n hn hhead
    exact absurd (hn.symm.trans (hseam n hhead)) nofun
  refine advance_congr hm ?_ ?_ ?_ ?_
  · rintro rfl
    exact iff_of_false nofun (hnot rfl)
  · rintro rfl
    exact iff_of_false nofun (hnot rfl)
  · exact fun hblock hstar => iff_of_false nofun (hend hblock hstar)
  · intro hquote
    refine iff_of_false nofun fun htwo => ?_
    have hself : completes c c = true := by simp [completes, hquote]
    obtain ⟨t, ht⟩ := isPrefix_of_take htwo
    exact hnot hself (by rw [← ht]; rfl)

/-- In front of the last character, what follows the part can complete three quotes only. -/
theorem advance_in_part {m : Mode} {c d : Char} {part after : List Char} (hm : m.Expects (c :: d :: part))
    (hseam : ∀ p ∈ (d :: part).getLast?, ∀ n ∈ after.head?, completes p n = false) :
    advance m c (d :: part) = advance m c (d :: part ++ after) := by
  refine advance_congr hm (fun _ => Iff.rfl) (fun _ => Iff.rfl) (fun _ _ => Iff.rfl) fun hquote => ?_
  cases part with
  | nil =>
    refine iff_of_false nofun fun htwo => ?_
    cases after with
    | nil => cases htwo
    | cons n after =>
      obtain ⟨rfl, rfl⟩ : d = c ∧ n = c := by simpa using htwo
      have hself := hseam n rfl n rfl
      simp [completes, hquote] at hself
  | cons e part => rfl

/-- **A part of a text is read as if nothing followed it**, if the characters at the seam complete no
opening, and no end of a block comment that is open there. -/
theorem reading_of_seam {m : Mode} {part after : List Char} (hm : m.Expects part)
    (hseam : ∀ p ∈ part.getLast?, ∀ n ∈ after.head?, completes p n = false)
    (hend : part.getLast? = some '*' → after.head? = some '/' →
      ∀ kept, reading m part [] ≠ some (kept, .blockComment)) :
    reading m part after = reading m part [] := by
  -- the seam is looked at from the last two characters only; the mode is carried along
  induction part generalizing m with
  | nil => rfl
  | cons c part ih =>
    have hadvance : advance m c part = advance m c (part ++ after) := by
      cases part with
      | nil =>
        refine advance_of_seam hm (hseam c rfl) ?_
        rintro rfl rfl hslash
        exact hend rfl hslash [] rfl
      | cons d part => exact advance_in_part hm fun p hp => hseam p (by simpa using hp)
    simp only [reading, List.append_nil, ← hadvance]
    cases hread : advance m c part with
    | none => rfl
    | some r =>
      obtain ⟨kept, next⟩ := r
      have hlast : ∀ {p : Char}, part.getLast? = some p → (c :: part).getLast? = some p := by
        intro p hp
        rw [List.getLast?_cons, hp]
        rfl
      simp only
      rw [ih (hm.advance hread) (fun p hp => hseam p (hlast hp))]
      intro hstar hslash rest hrest
      refine hend (hlast hstar) hslash (if kept then c :: rest else rest) ?_
      simp only [reading, List.append_nil, hread, hrest, Option.map_some]

/-- Whether a text begins with a character that completes no opening. -/
def Harmless (after : List Char) : Prop :=
  ∀ n ∈ after.head?, n ≠ '-' ∧ n ≠ '*' ∧ isQuote n = false

theorem harmless_cons {c : Char} (after : List Char)
    (h : (c != '-' && c != '*' && !isQuote c) = true := by decide) : Harmless (c :: after) := by
  rintro n ⟨⟩
  simpa [and_assoc] using h

/-- A class of characters that has none of these. -/
theorem harmless_of {p : Char → Bool} (hp : ('*' :: openers).any p = false) {after : List Char}
    (h : ∀ n ∈ after.head?, p n = true) : Harmless after := by
  obtain ⟨hstar, hopeners⟩ := Bool.or_eq_false_iff.1 (List.any_cons ▸ hp)
  intro n hn
  have hplain : isPlain n = true := isPlain_of (h n hn) hopeners
  simp only [isPlain, Bool.not_eq_true', Bool.or_eq_false_iff, beq_eq_false_iff_ne] at hplain
  refine ⟨hplain.1.2, ?_, hplain.1.1.1⟩
  rintro rfl
  exact Bool.false_ne_true (hstar.symm.trans (h _ hn))

theorem completes_of_harmless {after : List Char} (h : Harmless after) (p : Char) :
    ∀ n ∈ after.head?, completes p n = false := by
  intro n hn
  obtain ⟨hdash, hstar, hquote⟩ := h n hn
  have hsame : (isQuote p && n == p) = false := by
    rw [Bool.and_eq_false_imp]
    intro hp
    rw [beq_eq_false_iff_ne]
    rintro rfl
    exact absurd (hp.symm.trans hquote) nofun
  simp [completes, hdash, hstar, hsame]

/-- A part that leaves nothing open is read alike in front of every harmless text. -/
theorem reading_closed {part kept after : List Char} (h : reading .code part [] = some (kept, .code))
    (hafter : Harmless after) : reading .code part after = some (kept, .code) := by
  have hcode : Mode.code.Expects part := trivial
  rw [reading_of_seam hcode fun p _ => completes_of_harmless hafter p, h]
  intro _ _ kept' hblock
  rw [h] at hblock
  cases hblock

theorem scan_closed {part kept after : List Char} (h : reading .code part [] = some (kept, .code))
    (hafter : Harmless after) : scan .code (part ++ after) = (scan .code after).map (kept ++ ·) := by
  rw [scan_append, reading_closed h hafter, Option.bind_some]

theorem uncommented_closed {part kept : List Char} (h : reading .code part [] = some (kept, .code)) :
    uncommented part = some kept := by
  have hscan := scan_append .code part []
  rw [List.append_nil, h] at hscan
  rw [uncommented, hscan]
  simp [scan, Mode.inLiteral]

/-- A block comment ends where it is written to end. -/
theorem blockTail_of_body {body : List Char} (h : ¬ ['*', '/'] <:+: body) (rest : List Char) :
    BlockTail (body ++ '*' :: '/' :: rest) (body ++ ['*', '/']) rest := by
  induction body with
  | nil => exact .close rfl
  | cons c body ih =>
    refine .more ?_ (ih fun hinside => h (hinside.trans (List.suffix_cons c body).isInfix))
    intro hclose
    obtain ⟨rfl, hslash⟩ := List.cons_prefix_cons.1 hclose
    cases body with
    | nil => exact absurd (List.cons_prefix_cons.1 hslash).1 (by decide)
    | cons d body =>
      obtain ⟨rfl, -⟩ := List.cons_prefix_cons.1 hslash
      exact h ⟨[], body, rfl⟩

/-- **A block comment leaves nothing of itself.** -/
theorem scan_block {body : List Char} (h : ¬ ['*', '/'] <:+: body) (rest : List Char) :
    scan .code ('/' :: '*' :: (body ++ '*' :: '/' :: rest)) = scan .code rest := by
  have hfront := scan_front (.block rfl (blockTail_of_body h rest))
  simpa [Piece.kept] using hfront

end DeferredTx.Statement
