import DeferredTx.Proofs.Sql.Gap
import DeferredTx.Proofs.Sql.Literal
import DeferredTx.Statement.Cleaning

/-!
# Texts that the scanner reads as they are cut into tokens

* `Token.readsAlike`: whether the scanner takes a token and its gap for what they are.
* `readAlike`: whether it does so for all tokens of a text.
* `uncommented_of_readAlike`: **such a text leaves no literal open.**
* `setOff`: whether a text, without its comments, begins with a blank.
* `head_of_tokens`: the first token of a text is its end, or cut from its start.
-/

namespace DeferredTx.Sql

open Statement (scan uncommented blankBefore closedBefore scan_of_blankBefore scan_of_closedBefore)
open Text (isAsciiBlank)

/-- Whether the scanner reads the gap in front of a token as blanks and comments. Where comments are
plain it always does. `after` is the text behind the token. -/
def Token.gapAlike (d : Dialect) (t : Token) (after : List Char) : Bool :=
  d.hasPlainComments || blankBefore t.gap (t.text ++ after)

/-- Whether the scanner takes a token and the gap in front of it for what they are: nothing is open
behind either. A simple token and a tame literal never leave anything open. -/
def Token.readsAlike (d : Dialect) (t : Token) (after : List Char) : Bool :=
  t.gapAlike d after && (t.lexeme.isSimple || t.isTame || closedBefore t.text after)

/-- Whether the scanner takes all tokens of a text for what they are. -/
def readAlike (d : Dialect) : List Token → Bool
  | [] => true
  | t :: ts => t.readsAlike d (Token.textOf ts) && readAlike d ts

/-- Whether a text, without its comments, begins with an ASCII blank or is empty. -/
def setOff (cs : List Char) : Bool :=
  (uncommented cs).all fun kept => kept.head?.all isAsciiBlank

variable {d : Dialect} {cs : List Char} {t : Token} {ts : List Token}

/-- The gap in front of a token that is cut from a text. -/
theorem blankBefore_of_gapAlike (hd : d.IsScript) {n : Nat} (hgap : gap? d .between cs = some n)
    {l : Lexeme} {text after : List Char} (hcut : cs.drop n = text ++ after)
    (h : Token.gapAlike d ⟨l, cs.take n, text⟩ after = true) :
    blankBefore (cs.take n) (text ++ after) = true := by
  rcases Bool.or_eq_true_iff.1 h with hplain | hblank
  · rw [← hcut]
    exact blankBefore_gap hplain (fun _ hc => hd.isBlank hc) hgap
  · exact hblank

/-- A token that is cut from a text leaves nothing open, if the scanner takes it for what it is. -/
theorem closedBefore_of_readsAlike (hd : d.IsScript) {c : Char} {rest gap : List Char} {l : Lexeme}
    {taken : Nat} (h : lexeme d c rest = (l, taken))
    (halike : Token.readsAlike d ⟨l, gap, c :: rest.take (taken - 1)⟩ (rest.drop (taken - 1)) = true) :
    closedBefore (c :: rest.take (taken - 1)) (rest.drop (taken - 1)) = true := by
  have hcases := (Bool.and_eq_true_iff.1 halike).2
  simp only [Bool.or_eq_true] at hcases
  rcases hcases with (hsimple | htame) | hclosed
  · exact closedBefore_lexeme hd h hsimple
  · exact closedBefore_tame hd h htame
  · exact hclosed

/-- **A text whose tokens the scanner takes for what they are leaves no literal open.** -/
theorem uncommented_of_readAlike (hd : d.IsScript) (cs : List Char)
    (hlegal : ∀ t ∈ tokens d cs, t.lexeme ≠ .illegal) (h : readAlike d (tokens d cs) = true) :
    ∃ kept, uncommented cs = some kept := by
  fun_induction tokens d cs with
  | case1 cs hgap => exact absurd rfl (hlegal _ List.mem_cons_self)
  | case2 cs n hgap hend =>
    -- the text is a gap
    have hall : cs.take n = cs := List.take_of_length_le (List.drop_eq_nil_iff.1 hend)
    have hgap' : Token.gapAlike d ⟨.stop, cs.take n, []⟩ [] = true := by
      rw [hall]
      exact (Bool.and_eq_true_iff.1 (Bool.and_eq_true_iff.1 h).1).1
    have hblank := blankBefore_of_gapAlike hd hgap hend hgap'
    obtain ⟨blanks, -, hscan⟩ := scan_of_blankBefore hblank
    rw [hall, List.append_nil, List.append_nil] at hscan
    exact ⟨blanks ++ [], hscan⟩
  | case3 cs n hgap c rest hcut => exact absurd rfl (hlegal _ List.mem_cons_self)
  | case4 cs n hgap c rest hcut l taken hlexeme hl ih =>
    obtain ⟨hfirst, hmore⟩ := Bool.and_eq_true_iff.1 h
    rw [Token.textOf_tokens] at hfirst
    obtain ⟨kept, hkept⟩ := ih (fun t ht => hlegal t (List.mem_cons_of_mem _ ht)) hmore
    have hsplit : cs.drop n = c :: rest.take (taken - 1) ++ rest.drop (taken - 1) := by
      rw [hcut, List.cons_append, List.take_append_drop]
    have hblank := blankBefore_of_gapAlike hd hgap hsplit (Bool.and_eq_true_iff.1 hfirst).1
    have hclosed := closedBefore_of_readsAlike hd hlexeme hfirst
    obtain ⟨blanks, -, hscan⟩ := scan_of_blankBefore hblank
    obtain ⟨kept', hscan'⟩ := scan_of_closedBefore hclosed
    rw [hscan', show scan .code _ = some kept from hkept, ← hsplit, List.take_append_drop] at hscan
    exact ⟨blanks ++ (kept' ++ kept), hscan⟩

/-- The first token of a text is the end of it, or cut from it as the dialect says. -/
theorem head_of_tokens (hts : tokens d cs = t :: ts) (hlegal : t.lexeme ≠ .illegal) :
    (t.lexeme = .stop ∧ ts = []) ∨ ∃ n c rest taken, gap? d .between cs = some n ∧
      t.gap = cs.take n ∧ cs.drop n = t.text ++ Token.textOf ts ∧
      lexeme d c rest = (t.lexeme, taken) ∧ t.text = c :: rest.take (taken - 1) := by
  revert hts
  fun_cases tokens d cs with
  | case1 hgap =>
    intro hts
    cases hts
    exact absurd rfl hlegal
  | case2 n hgap hend =>
    intro hts
    cases hts
    exact Or.inl ⟨rfl, rfl⟩
  | case3 n hgap c rest hcut =>
    intro hts
    cases hts
    exact absurd rfl hlegal
  | case4 n hgap c rest hcut l taken hlexeme =>
    intro hts
    cases hts
    refine Or.inr ⟨n, c, rest, taken, hgap, rfl, ?_, hlexeme, rfl⟩
    rw [Token.textOf_tokens, hcut, List.cons_append, List.take_append_drop]

end DeferredTx.Sql
