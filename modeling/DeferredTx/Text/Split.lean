/-!
# Cutting texts

* `splitAtFirst?`, `splitAtLast?`: a text cut at the first, at the last occurrence of a character.
* `splitAll`: a text cut at every occurrence of a character.
* `before?`: what stands in front of a given text.
-/

namespace DeferredTx.Text

/-- The text cut at the first `mark` in it, which belongs to neither part. -/
def splitAtFirst? (mark : Char) : List Char → Option (List Char × List Char)
  | [] => none
  | c :: r =>
    if c = mark then some ([], r)
    else (splitAtFirst? mark r).map fun p => (c :: p.1, p.2)

theorem splitAtFirst?_append {mark : Char} {a : List Char} (h : mark ∉ a) (b : List Char) :
    splitAtFirst? mark (a ++ b) = (splitAtFirst? mark b).map fun p => (a ++ p.1, p.2) := by
  induction a with
  | nil => simp
  | cons c a ih =>
    have hc : c ≠ mark := fun heq => h (by simp [heq])
    have ha : mark ∉ a := fun hmem => h (List.mem_cons_of_mem c hmem)
    rw [List.cons_append, splitAtFirst?, if_neg hc, ih ha, Option.map_map]
    rfl

theorem splitAtFirst?_mark {mark : Char} {a : List Char} (h : mark ∉ a) (b : List Char) :
    splitAtFirst? mark (a ++ mark :: b) = some (a, b) := by
  simp [splitAtFirst?_append h, splitAtFirst?]

/-- The text cut at the last `mark` in it, which belongs to neither part. -/
def splitAtLast? (mark : Char) : List Char → Option (List Char × List Char)
  | [] => none
  | c :: r =>
    match splitAtLast? mark r with
    | some p => some (c :: p.1, p.2)
    | none => if c = mark then some ([], r) else none

/-- The last mark is behind a given one, or it is that one. -/
theorem splitAtLast?_mark (mark : Char) (a b : List Char) :
    splitAtLast? mark (a ++ mark :: b) =
      some (((splitAtLast? mark b).map fun p => (a ++ mark :: p.1, p.2)).getD (a, b)) := by
  induction a with
  | nil =>
    rw [List.nil_append, splitAtLast?]
    cases splitAtLast? mark b <;> simp
  | cons c a ih =>
    rw [List.cons_append, splitAtLast?, ih]
    cases splitAtLast? mark b <;> rfl

/-- The parts of a text between the characters that satisfy `isMark`; there is always one. It may
be a text of bytes as well. -/
def splitAll {α : Type} (isMark : α → Bool) : List α → List (List α)
  | [] => [[]]
  | c :: r =>
    match splitAll isMark r with
    | [] => [[]]
    | part :: parts => if isMark c then [] :: part :: parts else (c :: part) :: parts

section Parts

variable {α : Type} {isMark : α → Bool}

theorem splitAll_of_none {l : List α} (h : ∀ c ∈ l, isMark c = false) : splitAll isMark l = [l] := by
  induction l with
  | nil => rfl
  | cons c rest ih =>
    obtain ⟨hc, hrest⟩ := List.forall_mem_cons.1 h
    rw [splitAll, ih hrest]
    simp [hc]

theorem splitAll_ne_nil (l : List α) : splitAll isMark l ≠ [] := by
  cases l with
  | nil => exact List.cons_ne_nil _ _
  | cons c rest =>
    unfold splitAll
    split
    · exact List.cons_ne_nil _ _
    · split <;> exact List.cons_ne_nil _ _

theorem splitAll_append_mark {l : List α} (h : ∀ c ∈ l, isMark c = false) {m : α}
    (hm : isMark m = true) (rest : List α) :
    splitAll isMark (l ++ m :: rest) = l :: splitAll isMark rest := by
  induction l with
  | nil =>
    have hne : splitAll isMark rest ≠ [] := splitAll_ne_nil rest
    obtain ⟨part, parts, hparts⟩ := List.exists_cons_of_ne_nil hne
    rw [List.nil_append, splitAll, hparts]
    simp [hm]
  | cons c l ih =>
    obtain ⟨hc, hl⟩ := List.forall_mem_cons.1 h
    rw [List.cons_append, splitAll, ih hl]
    simp [hc]

/-- What is in none of the parts is a mark. -/
theorem mem_splitAll (isMark : α → Bool) {c : α} {l : List α} (h : c ∈ l) :
    isMark c = true ∨ ∃ part ∈ splitAll isMark l, c ∈ part := by
  induction l with
  | nil => exact absurd h List.not_mem_nil
  | cons d l ih =>
    have hne : splitAll isMark l ≠ [] := splitAll_ne_nil l
    obtain ⟨part, parts, hparts⟩ := List.exists_cons_of_ne_nil hne
    rw [splitAll, hparts]
    rw [hparts] at ih
    cases hd : isMark d with
    | true =>
      rcases List.mem_cons.1 h with rfl | hmem
      · exact .inl hd
      · exact (ih hmem).imp id fun ⟨q, hq, hc⟩ => ⟨q, List.mem_cons_of_mem [] hq, hc⟩
    | false =>
      -- `d` is put in front of the first part
      have hfirst : ∀ q ∈ part :: parts, c ∈ q → ∃ q' ∈ (d :: part) :: parts, c ∈ q' := by
        intro q hq hc
        rcases List.mem_cons.1 hq with rfl | hq
        · exact ⟨d :: q, List.mem_cons_self, List.mem_cons_of_mem d hc⟩
        · exact ⟨q, List.mem_cons_of_mem _ hq, hc⟩
      rcases List.mem_cons.1 h with rfl | hmem
      · exact .inr ⟨c :: part, List.mem_cons_self, List.mem_cons_self⟩
      · exact (ih hmem).imp id fun ⟨q, hq, hc⟩ => hfirst q hq hc

end Parts

/-- The text in front of the first `mark`, if it occurs. -/
def before? (mark : List Char) : List Char → Option (List Char)
  | [] => if mark.isEmpty then some [] else none
  | c :: r => if mark.isPrefixOf (c :: r) then some [] else (before? mark r).map (c :: ·)

end DeferredTx.Text
