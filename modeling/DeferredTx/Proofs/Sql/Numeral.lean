import DeferredTx.Proofs.Statement.Reading
import DeferredTx.Sql.Token

/-!
# Numbers, as the scanner reads them

A number is made of digits and points, but for its exponent, whose sign may be a hyphen.

* `isPrefix_numeral`, `numeral_ne_nil`: a number is what a text begins with, and it is not empty.
* `closedBefore_numeral`: **the scanner passes over every number.** The hyphen has a digit behind it.
-/

namespace DeferredTx.Sql

open Statement (reading isPlain isPlain_of closedBefore closedBefore_of_plain closedBefore_append)

theorem all_takeWhile {p : Char → Bool} (hp : ∀ c, p c = true → isPlain c = true) (cs : List Char) :
    (cs.takeWhile p).all isPlain = true := by
  refine List.all_eq_true.2 fun c hc => hp c ?_
  exact List.all_eq_true.1 (List.all_takeWhile) c hc

theorem isPlain_of_isDigit {c : Char} (h : c.isDigit = true) : isPlain c = true :=
  isPlain_of h (by decide)

/-- A prefix behind a prefix. -/
theorem isPrefix_append {a b cs : List Char} (ha : a <+: cs) (hb : b <+: cs.drop a.length) :
    a ++ b <+: cs := by
  obtain ⟨t, rfl⟩ := ha
  rw [List.drop_left] at hb
  obtain ⟨u, rfl⟩ := hb
  exact ⟨u, by simp⟩

/-- An exponent is empty, or a letter with a sign or none and with digits behind it. -/
theorem exponent_cases (cs : List Char) : exponent cs = [] ∨ ∃ e sign digits,
    exponent cs = e :: (sign ++ digits) ∧ exponent cs <+: cs ∧ (e = 'e' ∨ e = 'E') ∧
      (sign = [] ∨ sign = ['+'] ∨ sign = ['-']) ∧ digits ≠ [] ∧ digits.all Char.isDigit = true := by
  cases cs with
  | nil => exact Or.inl rfl
  | cons e r =>
    unfold exponent
    by_cases he : e = 'e' ∨ e = 'E'
    · simp only [if_pos he]
      generalize hsign : r.takeWhile (fun c => c == '+' || c == '-') = sign
      generalize hdigits : (r.drop sign.length).takeWhile Char.isDigit = digits
      split
      · rename_i h
        obtain ⟨hlength, hdigit⟩ := h
        have hprefix : sign ++ digits <+: r :=
          isPrefix_append (hsign ▸ List.takeWhile_prefix _) (hdigits ▸ List.takeWhile_prefix _)
        -- at most one sign is taken
        have hsigns : sign.all (fun c => c == '+' || c == '-') = true := hsign ▸ List.all_takeWhile
        have hcases : sign = [] ∨ sign = ['+'] ∨ sign = ['-'] := by
          match sign, hlength, hsigns with
          | [], _, _ => exact Or.inl rfl
          | [c], _, h => simpa using h
        refine Or.inr ⟨e, sign, digits, rfl, ?_, he, hcases, ?_, hdigits ▸ List.all_takeWhile⟩
        · exact List.cons_prefix_cons.2 ⟨rfl, hprefix⟩
        · rintro rfl
          simp at hdigit
      · exact Or.inl rfl
    · exact Or.inl (if_neg he)

theorem isPrefix_exponent (cs : List Char) : exponent cs <+: cs := by
  rcases exponent_cases cs with h | ⟨e, sign, digits, -, hprefix, -⟩
  · rw [h]
    exact List.nil_prefix
  · exact hprefix

/-- The hyphen of an exponent has a digit behind it. -/
theorem closedBefore_exponent (cs after : List Char) : closedBefore (exponent cs) after = true := by
  rcases exponent_cases cs with h | ⟨e, sign, digits, h, -, he, hsign, hne, hdigits⟩
  · rw [h]
    rfl
  rw [h]
  have hplain : ∀ c ∈ digits, isPlain c = true :=
    fun c hc => isPlain_of_isDigit (List.all_eq_true.1 hdigits c hc)
  have hclosed : closedBefore digits after = true :=
    closedBefore_of_plain (List.all_eq_true.2 hplain) after
  have hletter : ∀ rest, closedBefore [e] rest = true := by
    intro rest
    rcases he with rfl | rfl <;> rfl
  -- a hyphen opens a comment only in front of another one
  have hsign' : closedBefore sign (digits ++ after) = true := by
    cases digits with
    | nil => exact absurd rfl hne
    | cons c digits =>
      have hc : c ≠ '-' := by
        rintro rfl
        exact absurd (hplain _ List.mem_cons_self) (by decide)
      rcases hsign with rfl | rfl | rfl
      · rfl
      · rfl
      · simp [closedBefore, reading, Statement.advance, hc, Statement.isQuote]
  show closedBefore ([e] ++ (sign ++ digits)) after = true
  exact closedBefore_append (hletter _) (closedBefore_append hsign' hclosed)

/-- The digits of a number with at most one point among them. -/
theorem numeral_cases (cs : List Char) : ∃ plain,
    numeral cs = plain ++ exponent (cs.drop plain.length) ∧
      plain <+: cs ∧ plain.all isPlain = true := by
  have hdigits : ∀ l : List Char, (l.takeWhile Char.isDigit).all isPlain = true :=
    all_takeWhile fun c hc => isPlain_of_isDigit hc
  simp only [numeral]
  generalize hwhole : cs.takeWhile Char.isDigit = whole
  generalize hpoint : (if (cs.drop whole.length).head? = some '.' then ['.'] else []) = point
  generalize hfraction : (cs.drop (whole.length + point.length)).takeWhile Char.isDigit = fraction
  refine ⟨whole ++ point ++ fraction, rfl, isPrefix_append (isPrefix_append ?_ ?_) ?_, ?_⟩
  · exact hwhole ▸ List.takeWhile_prefix _
  · rw [← hpoint]
    split
    · rename_i h
      cases hd : cs.drop whole.length with
      | nil => simp [hd] at h
      | cons c r =>
        obtain rfl : c = '.' := by simpa [hd] using h
        exact ⟨r, rfl⟩
    · exact List.nil_prefix
  · rw [List.length_append, ← hfraction]
    exact List.takeWhile_prefix _
  · have hpoint' : point.all isPlain = true := by
      rw [← hpoint]
      split <;> decide
    rw [List.all_append, List.all_append, hpoint', ← hwhole, ← hfraction, hdigits, hdigits]
    rfl

theorem isPrefix_numeral (cs : List Char) : numeral cs <+: cs := by
  obtain ⟨plain, h, hprefix, -⟩ := numeral_cases cs
  rw [h]
  exact isPrefix_append hprefix (isPrefix_exponent _)

theorem closedBefore_numeral (cs after : List Char) : closedBefore (numeral cs) after = true := by
  obtain ⟨plain, h, -, hplain⟩ := numeral_cases cs
  rw [h]
  exact closedBefore_append (closedBefore_of_plain hplain _) (closedBefore_exponent _ _)

theorem numeral_ne_nil {c : Char} (h : c.isDigit = true ∨ c = '.') (rest : List Char) :
    numeral (c :: rest) ≠ [] := by
  simp only [numeral]
  rcases h with hdigit | rfl
  · simp [List.takeWhile_cons_of_pos hdigit]
  · have hpoint : ('.' : Char).isDigit = false := rfl
    simp [hpoint]

end DeferredTx.Sql
