import DeferredTx.Proofs.Statement.Reading
import DeferredTx.Sql.Token

/-!
# Gaps between tokens, as the scanner reads them

The scanner's comments are those of a dialect whose comments neither nest, nor end with a carriage
return, nor stay open.

* `Dialect.hasPlainComments`: whether a dialect's comments are so.
* `gap_step`: one character of a gap.
* `blankBefore_gap`: **the scanner reads a gap of such a dialect as blanks and comments.**
-/

namespace DeferredTx.Sql

open Statement (Mode advance reading isPlain blankBefore)
open Text (isBlank)

/-- Whether comments neither nest, nor end with a carriage return, nor stay open. -/
def Dialect.hasPlainComments (d : Dialect) : Bool :=
  !d.nestedComments && !d.returnEndsComment && !d.openComments

namespace GapMode

/-- The scanner's mode at this place of a gap. -/
def mode : GapMode → Mode
  | between => .code
  | lineComment => .lineComment
  | opening _ => .blockOpening
  | blockComment _ => .blockComment
  | closing _ => .blockClosing

/-- Whether no comment is open inside another one. -/
def isShallow : GapMode → Bool
  | opening depth | blockComment depth | closing depth => depth ≤ 1
  | _ => true

theorem inLiteral_mode (g : GapMode) : g.mode.inLiteral = false := by
  cases g <;> rfl

end GapMode

theorem isPlain_of_isBlank {c : Char} (h : isBlank c = true) : isPlain c = true :=
  Statement.isPlain_of h (by decide)

variable {d : Dialect}

/-- One character of a gap: either the gap ends in front of it, or the scanner goes along. -/
theorem gap_step (hd : d.hasPlainComments = true) (hblank : ∀ c, d.isBlank c = true → isBlank c = true)
    {g : GapMode} (hg : g.isShallow = true) {c : Char} {r : List Char} {n : Nat}
    (h : gap? d g (c :: r) = some n) :
    (g = .between ∧ n = 0) ∨ ∃ g' kept m, n = m + 1 ∧ gap? d g' r = some m ∧ g'.isShallow = true ∧
      advance g.mode c r = some (kept, g'.mode) ∧ (kept = true → isBlank c = true) := by
  simp only [Dialect.hasPlainComments, Bool.and_eq_true, Bool.not_eq_true'] at hd
  obtain ⟨⟨hnested, hreturn⟩, hopen⟩ := hd
  have hnext : ∀ {x : Option Nat}, x.map (· + 1) = some n → ∃ m, n = m + 1 ∧ x = some m := by
    intro x hx
    obtain ⟨m, hm, rfl⟩ := Option.map_eq_some_iff.1 hx
    exact ⟨m, rfl, hm⟩
  cases g with
  | between =>
    simp only [gap?] at h
    split at h
    · rename_i hb
      obtain ⟨m, rfl, hm⟩ := hnext h
      have hc := hblank c hb
      exact Or.inr ⟨.between, true, m, rfl, hm, rfl,
        Statement.advance_code_of_isPlain (isPlain_of_isBlank hc) r, fun _ => hc⟩
    split at h
    · -- a dialect may ask for a blank behind two hyphens, the scanner does not
      rename_i hline
      obtain ⟨m, rfl, hm⟩ := hnext h
      refine Or.inr ⟨.lineComment, false, m, rfl, hm, rfl, if_pos ?_, nofun⟩
      simp only [beginsLineComment, Bool.or_eq_true, Bool.and_eq_true, beq_iff_eq] at hline
      exact hline.imp (fun h => h.2) fun h => h.1
    split at h
    · rename_i hline hblock
      obtain ⟨m, rfl, hm⟩ := hnext h
      refine Or.inr ⟨.opening 1, false, m, rfl, hm, rfl, ?_, nofun⟩
      simp only [beginsBlockComment, Bool.and_eq_true, beq_iff_eq] at hblock
      obtain ⟨⟨rfl, hstar⟩, -⟩ := hblock
      simp [advance, GapMode.mode, hstar]
    · exact Or.inl ⟨rfl, (Option.some.inj h).symm⟩
  | lineComment =>
    -- the line feed that ends the comment is kept, and it is a blank
    obtain ⟨m, rfl, hm⟩ := hnext h
    simp only [hreturn, Bool.false_and, Bool.or_false, beq_iff_eq] at hm
    by_cases hc : c = '\n'
    · rw [if_pos hc] at hm
      refine Or.inr ⟨.between, true, m, rfl, hm, rfl, if_pos hc, fun _ => ?_⟩
      rw [hc]
      decide
    · rw [if_neg hc] at hm
      exact Or.inr ⟨.lineComment, false, m, rfl, hm, rfl, if_neg hc, nofun⟩
  | opening depth =>
    obtain ⟨m, rfl, hm⟩ := hnext h
    exact Or.inr ⟨.blockComment depth, false, m, rfl, hm, hg, rfl, nofun⟩
  | blockComment depth =>
    obtain ⟨m, rfl, hm⟩ := hnext h
    simp only [hnested, Bool.false_eq_true, false_and, if_false] at hm
    by_cases hc : c = '*' ∧ r.head? = some '/'
    · rw [if_pos hc] at hm
      exact Or.inr ⟨.closing depth, false, m, rfl, hm, hg, if_pos hc, nofun⟩
    · rw [if_neg hc] at hm
      exact Or.inr ⟨.blockComment depth, false, m, rfl, hm, hg, if_neg hc, nofun⟩
  | closing depth =>
    obtain ⟨m, rfl, hm⟩ := hnext h
    -- the scanner leaves the outermost comment here
    have hdepth : depth ≤ 1 := by simpa [GapMode.isShallow] using hg
    rw [if_pos hdepth] at hm
    exact Or.inr ⟨.between, false, m, rfl, hm, rfl, rfl, nofun⟩

theorem reading_gap (hd : d.hasPlainComments = true)
    (hblank : ∀ c, d.isBlank c = true → isBlank c = true) :
    ∀ (cs : List Char) {g : GapMode} {n : Nat}, g.isShallow = true → gap? d g cs = some n →
      ∃ kept m, reading g.mode (cs.take n) (cs.drop n) = some (kept, m) ∧ kept.all isBlank = true ∧
        (m = .code ∨ cs.drop n = [] ∧ m.inLiteral = false)
  | [], g, n, _, h => by
    exact ⟨[], g.mode, by simp [reading], rfl, Or.inr ⟨by simp, g.inLiteral_mode⟩⟩
  | c :: r, g, n, hg, h => by
    rcases gap_step hd hblank hg h with ⟨rfl, rfl⟩ | ⟨g', kept, m, rfl, hm, hg', hadvance, hkept⟩
    · exact ⟨[], .code, rfl, rfl, Or.inl rfl⟩
    obtain ⟨rest, m', hread, hall, hend⟩ := reading_gap hd hblank r hg' hm
    refine ⟨if kept then c :: rest else rest, m', ?_, ?_, by simpa using hend⟩
    · simp [reading, hadvance, hread]
    · cases kept with
      | true => simp [hall, hkept rfl]
      | false => simpa using hall

/-- **The scanner reads a gap as blanks and comments.** -/
theorem blankBefore_gap (hd : d.hasPlainComments = true)
    (hblank : ∀ c, d.isBlank c = true → isBlank c = true) {cs : List Char} {n : Nat}
    (h : gap? d .between cs = some n) : blankBefore (cs.take n) (cs.drop n) = true := by
  have hshallow : GapMode.between.isShallow = true := rfl
  obtain ⟨kept, m, hread, hall, hend⟩ := reading_gap hd hblank cs hshallow h
  have hread' : reading .code (cs.take n) (cs.drop n) = some (kept, m) := hread
  simp only [blankBefore, hread', hall, Bool.true_and, Bool.or_eq_true, beq_iff_eq,
    Bool.and_eq_true, List.isEmpty_iff, Bool.not_eq_true']
  exact hend

end DeferredTx.Sql
