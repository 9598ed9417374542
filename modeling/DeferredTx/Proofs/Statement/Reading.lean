import DeferredTx.Statement.Scan
import DeferredTx.Text.Blank

/-!
# Reading a text part by part

* `reading`: what the scanner keeps of a part of a text, and the mode that it leaves.
* `scan_append`, `reading_append`: a text is read part by part.
* `blankBefore`: a part that is read as blanks and comments.
* `closedBefore`: a part behind which neither a literal nor a comment is open.
* `closedBefore_of_plain`: **a part without quotes, hashes, hyphens and slashes is closed.**
-/

namespace DeferredTx.Statement

open Text

/-- In code a quote opens a literal, of three quotes if two more follow. -/
theorem advance_isQuote {q : Char} (hq : isQuote q = true) (rest : List Char) :
    advance .code q rest = if rest.take 2 = [q, q] then some (true, .tripleOpening q 1)
      else some (true, .literal q false false) := by
  simp only [isQuote, Bool.or_eq_true, beq_iff_eq] at hq
  rcases hq with (rfl | rfl) | rfl <;> rfl

/-- Reads a part of a text in front of `after`: the characters kept, and the mode behind it. -/
def reading (m : Mode) : List Char → List Char → Option (List Char × Mode)
  | [], _ => some ([], m)
  | c :: part, after =>
    match advance m c (part ++ after) with
    | none => none
    | some (kept, next) =>
      (reading next part after).map fun r => (if kept then c :: r.1 else r.1, r.2)

/-- A text is scanned part by part. -/
theorem scan_append (m : Mode) (part after : List Char) :
    scan m (part ++ after) =
      (reading m part after).bind fun r => (scan r.2 after).map (r.1 ++ ·) := by
  induction part generalizing m with
  | nil => simp [reading]
  | cons c part ih =>
    simp only [List.cons_append, scan, reading]
    cases advance m c (part ++ after) with
    | none => rfl
    | some p =>
      obtain ⟨kept, next⟩ := p
      simp only [ih, Option.bind_map, Option.map_bind]
      cases reading next part after with
      | none => rfl
      | some r =>
        cases kept <;> simp [Function.comp_def]

theorem reading_append (m : Mode) (part more after : List Char) :
    reading m (part ++ more) after = (reading m part (more ++ after)).bind fun r =>
      (reading r.2 more after).map fun q => (r.1 ++ q.1, q.2) := by
  induction part generalizing m with
  | nil => simp [reading]
  | cons c part ih =>
    simp only [List.cons_append, reading, List.append_assoc]
    cases advance m c (part ++ (more ++ after)) with
    | none => rfl
    | some p =>
      obtain ⟨kept, next⟩ := p
      simp only [ih, Option.bind_map, Option.map_bind]
      cases reading next part (more ++ after) with
      | none => rfl
      | some r => cases kept <;> simp [Function.comp_def]

/-- Whether a part in front of `after`, outside of literals and comments, is read as nothing but
blanks and comments. Only the end of the text may leave a comment open. -/
def blankBefore (part after : List Char) : Bool :=
  match reading .code part after with
  | some (kept, m) => kept.all isBlank && (m == .code || after.isEmpty && !m.inLiteral)
  | none => false

/-- Whether a part in front of `after`, outside of literals and comments, is read without leaving one
of them open. -/
def closedBefore (part after : List Char) : Bool :=
  (reading .code part after).any fun r => r.2 == .code

theorem exists_of_closedBefore {part after : List Char} (h : closedBefore part after = true) :
    ∃ kept, reading .code part after = some (kept, .code) := by
  unfold closedBefore at h
  cases hr : reading .code part after with
  | none => simp [hr] at h
  | some r =>
    obtain ⟨kept, m⟩ := r
    have hm : m = .code := by simpa [hr] using h
    exact ⟨kept, by rw [hm]⟩

/-- A part that is read as blanks and comments leaves blanks of a text. -/
theorem scan_of_blankBefore {part after : List Char} (h : blankBefore part after = true) :
    ∃ blanks, blanks.all isBlank = true ∧
      scan .code (part ++ after) = (scan .code after).map (blanks ++ ·) := by
  unfold blankBefore at h
  split at h
  · rename_i kept m hread
    obtain ⟨hblank, hend⟩ := Bool.and_eq_true_iff.1 h
    refine ⟨kept, hblank, ?_⟩
    rw [scan_append, hread, Option.bind_some]
    simp only [Bool.or_eq_true, beq_iff_eq, Bool.and_eq_true, List.isEmpty_iff,
      Bool.not_eq_true'] at hend
    rcases hend with rfl | ⟨rfl, hm⟩
    · rfl
    · have hcode : Mode.code.inLiteral = false := rfl
      simp [scan, hm, hcode]
  · cases h

/-- A part that leaves nothing open does not matter to what follows. -/
theorem scan_of_closedBefore {part after : List Char} (h : closedBefore part after = true) :
    ∃ kept, scan .code (part ++ after) = (scan .code after).map (kept ++ ·) := by
  obtain ⟨kept, hkept⟩ := exists_of_closedBefore h
  exact ⟨kept, by rw [scan_append, hkept, Option.bind_some]⟩

/-- The characters that the scanner passes over outside of literals and comments. -/
def isPlain (c : Char) : Bool :=
  !(isQuote c || c == '#' || c == '-' || c == '/')

/-- The characters that open literals and comments. -/
def openers : List Char :=
  ['\'', '"', '\x60', '#', '-', '/']

/-- A class of characters that has none of these. -/
theorem isPlain_of {p : Char → Bool} {c : Char} (hc : p c = true) (hp : openers.any p = false) :
    isPlain c = true := by
  have hne : ∀ d ∈ openers, c ≠ d := by
    rintro d hd rfl
    exact absurd hc (Bool.not_eq_true _ ▸ List.any_eq_false.1 hp c hd)
  simp only [openers, List.forall_mem_cons] at hne
  obtain ⟨h₁, h₂, h₃, h₄, h₅, h₆, -⟩ := hne
  simp [isPlain, isQuote, h₁, h₂, h₃, h₄, h₅, h₆]

theorem advance_code_of_isPlain {c : Char} (h : isPlain c = true) (rest : List Char) :
    advance .code c rest = some (true, .code) := by
  simp only [isPlain, Bool.not_eq_true', Bool.or_eq_false_iff, beq_eq_false_iff_ne, ne_eq] at h
  obtain ⟨⟨⟨hquote, hhash⟩, hdash⟩, hslash⟩ := h
  simp [advance, hquote, hhash, hdash, hslash]

/-- A part without quotes, hashes, hyphens and slashes is kept as it is. -/
theorem reading_of_plain {part : List Char} (h : part.all isPlain = true) (after : List Char) :
    reading .code part after = some (part, .code) := by
  induction part with
  | nil => rfl
  | cons c part ih =>
    simp only [List.all_cons, Bool.and_eq_true] at h
    simp [reading, advance_code_of_isPlain h.1, ih h.2]

theorem scan_of_plain {part : List Char} (h : part.all isPlain = true) (after : List Char) :
    scan .code (part ++ after) = (scan .code after).map (part ++ ·) := by
  rw [scan_append, reading_of_plain h, Option.bind_some]

theorem closedBefore_of_plain {part : List Char} (h : part.all isPlain = true) (after : List Char) :
    closedBefore part after = true := by
  simp [closedBefore, reading_of_plain h]

theorem closedBefore_append {part more after : List Char}
    (h : closedBefore part (more ++ after) = true) (hmore : closedBefore more after = true) :
    closedBefore (part ++ more) after = true := by
  obtain ⟨kept, hkept⟩ := exists_of_closedBefore h
  obtain ⟨kept', hkept'⟩ := exists_of_closedBefore hmore
  simp [closedBefore, reading_append, hkept, hkept']

end DeferredTx.Statement
