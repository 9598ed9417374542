/-!
# Blanks

Texts are handled as lists of characters. Two classes of blanks matter: Unicode's `White_Space`
property, at which texts are trimmed and meta commands are cut into words, and the five ASCII blanks,
at which the first token of a statement ends.

* `isBlank`, `isAsciiBlank`: the two classes; the second lies inside the first.
* `trim`, `trimEnd`: without blanks at both ends, at the right end.
* `word?`: the first run of characters that are not blank, and what follows it.
* `word?_run`: that run, where a text begins with it.
-/

namespace DeferredTx.Text

/-- The 25 characters of Unicode's `White_Space` property. -/
def isBlank (c : Char) : Bool :=
  let n := c.toNat
  (9 ≤ n && n ≤ 13) || n == 0x20 || n == 0x85 || n == 0xA0 || n == 0x1680
    || (0x2000 ≤ n && n ≤ 0x200A) || n == 0x2028 || n == 0x2029 || n == 0x202F || n == 0x205F
    || n == 0x3000

/-- The ASCII blanks: space, tab, line feed, form feed and carriage return (no vertical tab). -/
def isAsciiBlank (c : Char) : Bool :=
  c == ' ' || c == '\t' || c == '\n' || c == '\x0c' || c == '\r'

theorem isBlank_of_isAsciiBlank {c : Char} (h : isAsciiBlank c = true) : isBlank c = true := by
  simp only [isAsciiBlank, Bool.or_eq_true, beq_iff_eq] at h
  rcases h with (((rfl | rfl) | rfl) | rfl) | rfl <;> decide

/-- The text without blanks at its right end. -/
def trimEnd (cs : List Char) : List Char :=
  (cs.reverse.dropWhile isBlank).reverse

/-- The text without blanks at either end. -/
def trim (cs : List Char) : List Char :=
  trimEnd (cs.dropWhile isBlank)

/-- Whether nothing but blanks is in the text. -/
def allBlank (cs : List Char) : Bool :=
  cs.all isBlank

/-- The first run of characters outside `blank`, with the text behind it; `none` if there is none. -/
def word? (blank : Char → Bool) (cs : List Char) : Option (List Char × List Char) :=
  match cs.dropWhile blank with
  | [] => none
  | c :: r => some ((c :: r).takeWhile (fun x => !blank x), (c :: r).dropWhile (fun x => !blank x))

/-- A text that begins with characters outside `blank` begins with its first run of them. -/
theorem word?_run {blank : Char → Bool} {w : List Char} (hne : w ≠ [])
    (hw : ∀ c ∈ w, blank c = false) (cs : List Char) : word? blank (w ++ cs) =
      some (w ++ cs.takeWhile (fun x => !blank x), cs.dropWhile (fun x => !blank x)) := by
  have hsolid : ∀ c ∈ w, (!blank c) = true := fun c hc => by rw [hw c hc]; rfl
  obtain ⟨c, r, rfl⟩ := List.exists_cons_of_ne_nil hne
  have hfirst : (c :: (r ++ cs)).dropWhile blank = c :: (r ++ cs) :=
    List.dropWhile_cons_of_neg (by simp [hw c List.mem_cons_self])
  rw [List.cons_append, word?, hfirst]
  show some (((c :: r) ++ cs).takeWhile _, ((c :: r) ++ cs).dropWhile _) = _
  rw [List.takeWhile_append_of_pos hsolid, List.dropWhile_append_of_pos hsolid]

end DeferredTx.Text
