import DeferredTx.Proofs.Statement.Finish
import DeferredTx.Shell.Command

/-!
# The words of a line

A text is cut into words at its blanks, and the words of a line are those behind the backslashes that
it begins with.

* `Words`, `LineWords`: the words of a text, and those of a line.
* `Words.word?_cases`: the first word, and the text behind it.
* `existsUnique_lineWords`: **every line has exactly one list of words.**
* `words_of_lineWords`: the first two of them are the ones that commands are read from.
-/

namespace DeferredTx.Shell

open Text
open Statement (LeftTrimmed RightTrimmed eq_dropWhile_iff leftTrimmed_iff rightTrimmed_iff)

section Words

variable {w : String} {cs : List Char} {ws ws' : List String}

/-- A word: at least one character, and no blanks. -/
def IsWord (w : String) : Prop :=
  w ≠ "" ∧ ∀ c ∈ w.toList, isBlank c = false

instance (w : String) : Decidable (IsWord w) :=
  decidable_of_iff (w ≠ "" ∧ w.toList.all (fun c => !isBlank c) = true) (by simp [IsWord])

/-- The words of a text: the runs of characters between its blanks, in their order. -/
inductive Words : List Char → List String → Prop where
  | nil : Words [] []
  | blank {c : Char} {cs : List Char} {ws : List String} : isBlank c = true → Words cs ws →
    Words (c :: cs) ws
  | word {w : String} {cs : List Char} {ws : List String} : IsWord w →
    (∀ c ∈ cs.head?, isBlank c = true) → Words cs ws → Words (w.toList ++ cs) (w :: ws)

theorem IsWord.toList_ne_nil (hw : IsWord w) : w.toList ≠ [] :=
  fun h => hw.1 (String.toList_eq_nil_iff.1 h)

theorem Words.isWord (h : Words cs ws) : ∀ w ∈ ws, IsWord w := by
  induction h with
  | nil => exact nofun
  | blank _ _ ih => exact ih
  | word hw _ _ ih => exact List.forall_mem_cons.2 ⟨hw, ih⟩

/-- The last word of a text. -/
theorem Words.last (hw : IsWord w) : Words w.toList [w] := by
  have h : Words (w.toList ++ []) [w] := .word hw nofun .nil
  rwa [List.append_nil] at h

/-- A word with a blank behind it. -/
theorem Words.spaced {b : Char} (hw : IsWord w) (hb : isBlank b = true) (h : Words cs ws) :
    Words (w.toList ++ b :: cs) (w :: ws) :=
  .word hw (by simpa using hb) (.blank hb h)

/-- Characters that are no blanks make a word, or are none, in front of a blank or at the end. -/
theorem Words.append {front : List Char} (hfront : ∀ c ∈ front, isBlank c = false)
    (hend : ∀ c ∈ cs.head?, isBlank c = true) (h : Words cs ws) : ∃ ws', Words (front ++ cs) ws' := by
  by_cases hempty : front = []
  · exact ⟨ws, hempty ▸ h⟩
  · have hw : IsWord (String.ofList front) := by
      refine ⟨fun heq => hempty ?_, by rwa [String.toList_ofList]⟩
      simpa using congrArg String.toList heq
    have hwords := Words.word hw hend h
    rw [String.toList_ofList] at hwords
    exact ⟨_, hwords⟩

/-- Every text has words. -/
theorem exists_words (cs : List Char) : ∃ ws, Words cs ws := by
  -- by recursion on the text, with the part of a word that has been passed already
  suffices h : ∀ front : List Char, (∀ c ∈ front, isBlank c = false) → ∃ ws, Words (front ++ cs) ws from
    h [] nofun
  induction cs with
  | nil => exact fun front hfront => Words.append hfront nofun .nil
  | cons c cs ih =>
    intro front hfront
    cases hc : isBlank c with
    | true =>
      obtain ⟨ws, hws⟩ := ih [] nofun
      exact Words.append hfront (by simpa using hc) (.blank hc hws)
    | false =>
      have hmore : ∀ d ∈ front ++ [c], isBlank d = false :=
        List.forall_mem_append.2 ⟨hfront, List.forall_mem_singleton.2 hc⟩
      obtain ⟨ws, hws⟩ := ih (front ++ [c]) hmore
      exact ⟨ws, by rwa [List.append_assoc] at hws⟩

/-- A word in front of a blank, or at the end, is found as it is. -/
theorem word?_word (hw : IsWord w) (hend : ∀ c ∈ cs.head?, isBlank c = true) :
    word? isBlank (w.toList ++ cs) = some (w.toList, cs) := by
  have hstop : cs.takeWhile (fun c => !isBlank c) = [] ∧ cs.dropWhile (fun c => !isBlank c) = cs := by
    cases cs with
    | nil => exact ⟨rfl, rfl⟩
    | cons c cs =>
      have hc : ¬(!isBlank c) = true := by simp [hend c rfl]
      exact ⟨List.takeWhile_cons_of_neg hc, List.dropWhile_cons_of_neg hc⟩
  rw [word?_run hw.toList_ne_nil hw.2, hstop.1, hstop.2, List.append_nil]

/-- The first word is found, and the others are those of the text behind it. -/
theorem Words.word?_cases (h : Words cs ws) : (ws = [] ∧ word? isBlank cs = none) ∨
    ∃ w more rest, ws = w :: more ∧ word? isBlank cs = some (w.toList, rest) ∧ Words rest more := by
  induction h with
  | nil => exact .inl ⟨rfl, rfl⟩
  | @blank c cs ws hc _ ih =>
    have hskip : word? isBlank (c :: cs) = word? isBlank cs := by
      unfold word?
      rw [List.dropWhile_cons_of_pos hc]
    rwa [hskip]
  | word hw hend h _ => exact .inr ⟨_, _, _, rfl, word?_word hw hend, h⟩

/-- A text has one list of words. -/
theorem Words.unique (h : Words cs ws) (h' : Words cs ws') : ws = ws' := by
  induction ws generalizing cs ws' with
  | nil =>
    rcases h.word?_cases with ⟨-, hnone⟩ | ⟨_, _, _, heq, -⟩
    · rcases h'.word?_cases with ⟨rfl, -⟩ | ⟨_, _, _, -, hsome, -⟩
      · rfl
      · rw [hnone] at hsome
        cases hsome
    · cases heq
  | cons w ws ih =>
    obtain ⟨heq, -⟩ | ⟨_, _, rest, heq, hsome, hrest⟩ := h.word?_cases
    · cases heq
    · cases heq
      rcases h'.word?_cases with ⟨-, hnone⟩ | ⟨_, more, _, rfl, hsome', hrest'⟩
      · rw [hsome] at hnone
        cases hnone
      · rw [hsome, Option.some.injEq, Prod.mk.injEq, String.toList_inj] at hsome'
        obtain ⟨rfl, rfl⟩ := hsome'
        rw [ih hrest hrest']

end Words

section Lines

variable {line : String} {ws : List String}

/-- The words of a line: those of its text without blanks at either end, behind all the backslashes
that it begins with then. -/
inductive LineWords (line : String) (ws : List String) : Prop where
  | intro {left body slashes rest : List Char} : LeftTrimmed line.toList left →
    RightTrimmed left body → body = slashes ++ rest → (∀ c ∈ slashes, c = '\\') →
    rest.head? ≠ some '\\' → Words rest ws → LineWords line ws

theorem lineWords_iff :
    LineWords line ws ↔ Words ((trim line.toList).dropWhile (· == '\\')) ws := by
  constructor
  · rintro @⟨left, body, slashes, rest, hleft, hright, hbody, hslashes, hrest, h⟩
    rw [leftTrimmed_iff] at hleft
    rw [rightTrimmed_iff, hleft] at hright
    have hstop : ∀ c ∈ rest.head?, (c == '\\') = false := by
      intro c hc
      refine beq_false_of_ne fun heq => hrest ?_
      rwa [← heq]
    have hdrop : rest = body.dropWhile (· == '\\') :=
      eq_dropWhile_iff.2 ⟨slashes, hbody, by simpa using hslashes, hstop⟩
    rw [hright] at hdrop
    exact hdrop ▸ h
  · intro h
    obtain ⟨slashes, hbody, hslashes, hrest⟩ := eq_dropWhile_iff.1 (rfl :
      (trim line.toList).dropWhile (· == '\\') = _)
    refine .intro (leftTrimmed_iff.2 rfl) (rightTrimmed_iff.2 rfl) hbody (by simpa using hslashes) ?_ h
    intro hhead
    exact absurd (hrest _ hhead) (by decide)

theorem LineWords.isWord (h : LineWords line ws) : ∀ w ∈ ws, IsWord w :=
  Words.isWord (lineWords_iff.1 h)

/-- The words of a line that begins with one backslash and ends with a word. -/
theorem LineWords.of_word {w : String} {rest : List Char} (hw : IsWord w) (front : List Char)
    (hend : line.toList = front ++ w.toList) (hline : line.toList = '\\' :: rest)
    (hrest : rest.head? ≠ some '\\') (h : Words rest ws) : LineWords line ws := by
  have hlast : ∀ c ∈ line.toList.getLast?, isBlank c = false := by
    intro c hc
    rw [hend, List.getLast?_append_of_ne_nil _ hw.toList_ne_nil] at hc
    exact hw.2 c (List.mem_of_getLast? hc)
  have hfirst : ∀ c ∈ line.toList.head?, isBlank c = false := by
    intro c hc
    rw [hline] at hc
    obtain rfl := Option.some.inj hc
    decide
  exact @LineWords.intro line ws _ _ ['\\'] rest ⟨[], rfl, rfl, hfirst⟩
    ⟨[], (List.append_nil _).symm, rfl, hlast⟩ hline (List.forall_mem_singleton.2 rfl) hrest h

/-- **Every line has exactly one list of words.** -/
theorem existsUnique_lineWords (line : String) : ∃! ws, LineWords line ws := by
  simp only [lineWords_iff]
  obtain ⟨ws, hws⟩ := exists_words ((trim line.toList).dropWhile (· == '\\'))
  exact ⟨ws, hws, fun _ h => h.unique hws⟩

/-- A word in lower case. -/
def lower (w : String) : String :=
  String.ofList (fold w.toList)

/-- The reader of commands finds the first two words. -/
theorem words_of_lineWords (h : LineWords line ws) :
    Command.words line = (lower (ws.headD ""), ws.tail.head?) := by
  rw [lineWords_iff] at h
  unfold Command.words
  rcases h.word?_cases with ⟨rfl, hnone⟩ | ⟨w, more, rest, rfl, hsome, hrest⟩
  · rw [hnone]
    rfl
  · rw [hsome]
    rcases hrest.word?_cases with ⟨rfl, hnone'⟩ | ⟨w', _, _, rfl, hsome', -⟩
    · simp only [hnone']
      rfl
    · simp only [hsome', Option.map_some, String.ofList_toList]
      rfl

end Lines

end DeferredTx.Shell
