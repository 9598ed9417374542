import Mathlib.Data.List.Basic
import Mathlib.Data.List.TakeWhile
import DeferredTx.Proofs.Statement.ByPieces

/-!
# What finishing a text takes away

A kept text is finished at its two ends: blanks are trimmed, and one semicolon is dropped.

* `exists_of_finish`: what is taken away at the ends.
* `finish_finish`: **finishing is done once**, unless a semicolon is left.
* `finish_framed`: blanks around a text, and a semicolon behind it, make no difference.
* `finishEnd`, `finish_split`: what is left of a text in two parts, each cut at its own end.
* `finish_spaced`, `finish_spaced_of_nil`: a blank between the two parts stays if something is left of
  both, and makes no difference otherwise.
-/

namespace DeferredTx.Statement

open Text

variable {x y blanks : List Char}

theorem trimEnd_append_blanks (h : blanks.all isBlank = true) (x : List Char) :
    trimEnd (x ++ blanks) = trimEnd x := by
  have hall : ∀ c ∈ blanks.reverse, isBlank c = true := by
    simpa using h
  rw [trimEnd, List.reverse_append, List.dropWhile_append_of_pos hall]
  rfl

theorem trimEnd_eq_self (h : ∀ c ∈ x.getLast?, isBlank c = false) : trimEnd x = x := by
  simpa [trimEnd] using trimEnd_append h []

/-- Nothing is trimmed away where no blanks are. -/
theorem trim_of_solid (h : ∀ c ∈ x, isBlank c = false) : trim x = x := by
  have hfirst : x.dropWhile isBlank = x := by
    cases x with
    | nil => rfl
    | cons c rest => exact List.dropWhile_cons_of_neg (by simp [h c List.mem_cons_self])
  rw [trim, hfirst]
  exact trimEnd_eq_self fun c hc => h c (List.mem_of_getLast? hc)

theorem exists_of_trimEnd (x : List Char) : ∃ blanks, x = trimEnd x ++ blanks ∧
    blanks.all isBlank = true ∧ ∀ c ∈ (trimEnd x).getLast?, isBlank c = false :=
  rightTrimmed_iff.2 rfl

/-- What stands in front of a text that is not trimmed away stays in front of it. -/
theorem trimEnd_append_of_ne_nil (h : trimEnd y ≠ []) (x : List Char) :
    trimEnd (x ++ y) = x ++ trimEnd y := by
  obtain ⟨blanks, hy, hblanks, hlast⟩ := exists_of_trimEnd y
  have hkeep : ∀ c ∈ (x ++ trimEnd y).getLast?, isBlank c = false := by
    intro c hc
    rw [List.getLast?_append_of_ne_nil x h] at hc
    exact hlast c hc
  calc trimEnd (x ++ y) = trimEnd (x ++ trimEnd y ++ blanks) := by rw [List.append_assoc, ← hy]
    _ = trimEnd (x ++ trimEnd y) := trimEnd_append_blanks hblanks _
    _ = x ++ trimEnd y := trimEnd_eq_self hkeep

theorem all_isBlank_of_trimEnd (h : trimEnd y = []) : y.all isBlank = true := by
  obtain ⟨blanks, hy, hblanks, -⟩ := exists_of_trimEnd y
  rw [hy, h]
  exact hblanks

theorem dropTerminator_append_of_ne_nil (h : y ≠ []) (x : List Char) :
    dropTerminator (x ++ y) = x ++ dropTerminator y := by
  unfold dropTerminator
  rw [List.getLast?_append_of_ne_nil x h]
  split
  · rw [List.dropLast_append_of_ne_nil h]
  · rfl

theorem trim_blanks_append (h : blanks.all isBlank = true) (x : List Char) :
    trim (blanks ++ x) = trim x := by
  rw [trim, List.dropWhile_append_of_pos (List.all_eq_true.1 h), ← trim]

theorem trim_append_blanks (h : blanks.all isBlank = true) (x : List Char) :
    trim (x ++ blanks) = trim x := by
  rw [trim, trim, List.dropWhile_append]
  split
  · rename_i hnil
    have hnone : blanks.dropWhile isBlank = [] :=
      List.dropWhile_eq_nil_iff.2 (List.all_eq_true.1 h)
    rw [hnone, List.isEmpty_iff.1 hnil]
  · exact trimEnd_append_blanks h _

theorem trim_trimEnd (x : List Char) : trim (trimEnd x) = trim x := by
  obtain ⟨blanks, hx, hblanks, -⟩ := exists_of_trimEnd x
  rw [← trim_append_blanks hblanks, ← hx]

/-- The characters that finishing takes away at the end of a text. -/
def isEdge (c : Char) : Bool :=
  isBlank c || c == ';'

theorem all_isEdge_of_blanks (h : blanks.all isBlank = true) : blanks.all isEdge = true :=
  List.all_eq_true.2 fun c hc => by simp [isEdge, List.all_eq_true.1 h c hc]

/-- Finishing takes blanks and a semicolon away, and nothing else. -/
theorem exists_of_finish (kept : List Char) : ∃ front tail,
    kept = front ++ finish kept ++ tail ∧ front.all isBlank = true ∧ tail.all isEdge = true := by
  obtain ⟨trimmed, body, middle, ⟨blanks, hkept, hblanks, -⟩, hbody, ⟨front, hfront, hfronts, -⟩,
    ⟨inner, hinner, hinners, -⟩⟩ := finished_iff.2 (rfl : finish kept = finish kept)
  generalize finish kept = out at hinner
  have hends := all_isEdge_of_blanks hblanks
  have hinners' := all_isEdge_of_blanks hinners
  rcases hbody with hbody | ⟨hbody, -⟩
  · refine ⟨front, inner ++ [';'] ++ blanks, ?_, hfronts, ?_⟩
    · simp [hkept, hbody, hfront, hinner]
    · simp [hinners', hends, show isEdge ';' = true by decide]
  · refine ⟨front, inner ++ blanks, ?_, hfronts, ?_⟩
    · simp [hkept, hbody, hfront, hinner]
    · simp [hinners', hends]

/-- **Finishing is done once**, unless a semicolon is left. -/
theorem finish_finish (kept : List Char) (h : (finish kept).getLast? ≠ some ';') :
    finish (finish kept) = finish kept := by
  obtain ⟨-, -, middle, -, -, ⟨front, -, -, hhead⟩, ⟨inner, hmiddle, -, hlast⟩⟩ :=
    finished_iff.2 (rfl : finish kept = finish kept)
  have hfirst : (finish kept).dropWhile isBlank = finish kept := by
    generalize finish kept = out at hmiddle
    cases out with
    | nil => rfl
    | cons c out => exact List.dropWhile_cons_of_neg (by simp [hhead c (by simp [hmiddle])])
  have hend : trimEnd (finish kept) = finish kept := trimEnd_eq_self hlast
  have hkeep : dropTerminator (finish kept) = finish kept := if_neg h
  rw [finish, hend, hkeep, trim, hfirst, hend]

/-- Blanks in front make no difference. -/
theorem finish_blanks_append (h : blanks.all isBlank = true) (x : List Char) :
    finish (blanks ++ x) = finish x := by
  by_cases hx : trimEnd x = []
  · have hall : trimEnd (blanks ++ x) = [] := by
      have hblank : (blanks ++ x).all isBlank = true := by
        simp [h, all_isBlank_of_trimEnd hx]
      exact trimEnd_append_blanks hblank []
    rw [finish, finish, hall, hx]
  · rw [finish, trimEnd_append_of_ne_nil hx, dropTerminator_append_of_ne_nil hx,
      trim_blanks_append h, ← finish]

theorem finish_append_blanks (h : blanks.all isBlank = true) (x : List Char) :
    finish (x ++ blanks) = finish x := by
  rw [finish, trimEnd_append_blanks h, ← finish]

/-- A semicolon behind a text is dropped and nothing but it. -/
theorem finish_append_stop (x : List Char) : finish (x ++ [';']) = trim x := by
  have hend : trimEnd (x ++ [';']) = x ++ [';'] := trimEnd_eq_self (by simp; decide)
  rw [finish, hend, dropTerminator_append_of_ne_nil (List.cons_ne_nil _ _)]
  simp [dropTerminator]

theorem finish_of_no_stop (h : (trimEnd x).getLast? ≠ some ';') : finish x = trim x := by
  have hkeep : dropTerminator (trimEnd x) = trimEnd x := if_neg h
  rw [finish, hkeep, trim_trimEnd]

/-- **Blanks around a text that does not end in a semicolon, and a semicolon behind it, make no
difference.** -/
theorem finish_framed {front behind stop : List Char} (hfront : front.all isBlank = true)
    (hbehind : behind.all isBlank = true) (hstop : stop = [';'] ∨ stop = [])
    (h : (trimEnd x).getLast? ≠ some ';') : finish (front ++ x ++ stop ++ behind) = finish x := by
  rw [finish_append_blanks hbehind]
  rcases hstop with rfl | rfl
  · rw [finish_append_stop, trim_blanks_append hfront, finish_of_no_stop h]
  · rw [List.append_nil, finish_blanks_append hfront]

/-- What finishing leaves of a text that something stands in front of. -/
def finishEnd (y : List Char) : List Char :=
  trimEnd (dropTerminator (trimEnd y))

theorem isPrefix_finishEnd (y : List Char) : finishEnd y <+: y :=
  (isPrefix_trimEnd _).trans ((isPrefix_dropTerminator _).trans (isPrefix_trimEnd y))

/-- What is left of a text in two parts, if something is left of both. -/
theorem finish_split (hx : x.dropWhile isBlank ≠ []) (hy : finishEnd y ≠ []) :
    finish (x ++ y) = x.dropWhile isBlank ++ finishEnd y := by
  have htrim : trimEnd y ≠ [] := by
    intro hnil
    rw [finishEnd, hnil] at hy
    exact hy rfl
  have hdrop : (x ++ dropTerminator (trimEnd y)).dropWhile isBlank =
      x.dropWhile isBlank ++ dropTerminator (trimEnd y) := by
    rw [List.dropWhile_append, if_neg (by simpa using hx)]
  rw [finish, trimEnd_append_of_ne_nil htrim, dropTerminator_append_of_ne_nil htrim, trim, hdrop,
    trimEnd_append_of_ne_nil hy, ← finishEnd]

/-- If nothing is left of the second part, what stands in front of it is trimmed at its end. -/
theorem finish_of_finishEnd_nil (hy : finishEnd y = []) (hblanks : blanks.all isBlank = true)
    (x : List Char) : finish (x ++ blanks ++ y) = finish (x ++ y) := by
  by_cases htrim : trimEnd y = []
  · have hall := all_isBlank_of_trimEnd htrim
    rw [finish_append_blanks hall, finish_append_blanks hblanks, finish_append_blanks hall]
  · have hdrop : (dropTerminator (trimEnd y)).all isBlank = true := all_isBlank_of_trimEnd hy
    have htwo : ∀ z, finish (z ++ y) = trim z := by
      intro z
      rw [finish, trimEnd_append_of_ne_nil htrim, dropTerminator_append_of_ne_nil htrim,
        trim_append_blanks hdrop]
    rw [htwo, htwo, trim_append_blanks hblanks]

/-- A blank between two parts of a text makes no difference if nothing is left of one of them. -/
theorem finish_spaced_of_nil (h : x.dropWhile isBlank = [] ∨ finishEnd y = []) :
    finish (x ++ ' ' :: y) = finish (x ++ y) := by
  have hspace : [' '].all isBlank = true := by decide
  have hcons : x ++ ' ' :: y = x ++ [' '] ++ y := by simp
  rw [hcons]
  rcases h with hx | hy
  · have hall : x.all isBlank = true := List.all_eq_true.2 (List.dropWhile_eq_nil_iff.1 hx)
    rw [finish_blanks_append (by simp [hall, hspace]), finish_blanks_append hall]
  · exact finish_of_finishEnd_nil hy hspace x

/-- **A blank between two parts of a text stays** if something is left of both. -/
theorem finish_spaced (hx : x.dropWhile isBlank ≠ []) (hy : finishEnd y ≠ []) :
    finish (x ++ ' ' :: y) = x.dropWhile isBlank ++ ' ' :: finishEnd y := by
  have hcons : x ++ ' ' :: y = x ++ [' '] ++ y := by simp
  have hdrop : (x ++ [' ']).dropWhile isBlank = x.dropWhile isBlank ++ [' '] := by
    rw [List.dropWhile_append, if_neg (by simpa using hx)]
  have hne : (x ++ [' ']).dropWhile isBlank ≠ [] := by simp [hdrop]
  rw [hcons, finish_split hne hy, hdrop, List.append_assoc]
  rfl

end DeferredTx.Statement
