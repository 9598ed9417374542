import DeferredTx.Proofs.Sql.Cut

/-!
# Tokens that open no literal and no comment

Words, numbers, parameters, semicolons and most symbols mean nothing to the scanner, whatever dialect
of scripts they are cut in.

* `Lexeme.isSimple`: the tokens of these kinds.
* `Dialect.IsScript`: what the dialects of scripts have in common.
* `closedBefore_lexeme`: **the scanner passes over every simple token**, wherever it stands.
-/

namespace DeferredTx.Sql

open Statement (isQuote isPlain isPlain_of closedBefore closedBefore_of_plain closedBefore_append)

/-- Whether a token is a word, a number, a parameter, a semicolon, or a symbol of characters that
open nothing. -/
def Lexeme.isSimple : Lexeme → Bool
  | .word _ | .number _ | .parameter _ | .stop => true
  | .symbol text | .operator text => text.toList.all isPlain
  | _ => false

/-- What the dialects of scripts have in common. -/
structure Dialect.IsScript (d : Dialect) : Prop where
  isBlank {c : Char} : d.isBlank c = true → Text.isBlank c = true
  hexBytes : d.hexBytes = true
  startsName {c : Char} : d.startsName c = true → isPlain c = true
  continuesName {c : Char} : d.continuesName c = true → isPlain c = true
  closes {p : Char × Char} : p ∈ d.nameQuotes → isQuote p.1 = true → p.2 = p.1

theorem closes_ofKind (kind : DatabaseKind) :
    ∀ p ∈ (Dialect.ofKind kind).nameQuotes, isQuote p.1 = true → p.2 = p.1 := by
  cases kind <;> decide

theorem isScript_ofKind (kind : DatabaseKind) : (Dialect.ofKind kind).IsScript := by
  have hcloses := closes_ofKind kind
  cases kind with
  | postgres | mysql | mariadb | sqlite =>
    exact ⟨id, rfl, fun h => isPlain_of h (by decide), fun h => isPlain_of h (by decide),
      fun {p} => hcloses p⟩

variable {d : Dialect} {c : Char} {rest after : List Char} {l : Lexeme} {taken : Nat}

/-- A run of plain characters behind a plain one. -/
theorem closedBefore_run {p : Char → Bool} (hp : ∀ c, p c = true → isPlain c = true)
    (hc : isPlain c = true) : closedBefore (c :: rest.takeWhile p) after = true := by
  refine closedBefore_of_plain ?_ after
  rw [List.all_cons, hc, all_takeWhile hp]
  rfl

/-- The text of a simple token. -/
theorem Cut.closedBefore_spelling (hd : d.IsScript) (h : Cut d c rest l taken)
    (hl : l.isSimple = true) :
    ∃ w, l.spelling? = some w ∧ ∀ after, closedBefore w after = true := by
  cases h with
  | string | name | dollar | bytes | illegal => cases hl
  | hexNumber hbytes => exact absurd hd.hexBytes (by simp [hbytes])
  | number =>
    refine ⟨numeral (c :: rest), ?_, closedBefore_numeral _⟩
    simp [Lexeme.spelling?]
  | digitName =>
    refine ⟨_, congrArg some String.toList_ofList, fun after => ?_⟩
    refine closedBefore_append (closedBefore_numeral _ _) (closedBefore_of_plain ?_ after)
    exact all_takeWhile (fun c hc => hd.continuesName hc) _
  | word hname =>
    refine ⟨_, congrArg some String.toList_ofList, fun after => ?_⟩
    exact closedBefore_run (fun c hc => hd.continuesName hc) (hd.startsName hname)
  | parameter hc hp =>
    refine ⟨_, congrArg some String.toList_ofList, fun after => ?_⟩
    refine closedBefore_run (fun c hc => isPlain_of hc hp) ?_
    rcases hc with rfl | rfl <;> decide
  | symbol => exact ⟨_, rfl, closedBefore_of_plain hl⟩
  | operator => exact ⟨_, rfl, closedBefore_of_plain hl⟩
  | stop => exact ⟨_, rfl, fun _ => rfl⟩

/-- **The scanner passes over every simple token**, wherever it stands. -/
theorem closedBefore_lexeme (hd : d.IsScript) (h : lexeme d c rest = (l, taken))
    (hl : l.isSimple = true) : closedBefore (c :: rest.take (taken - 1)) after = true := by
  obtain ⟨w, hspelling, hclosed⟩ := (cut_lexeme h).closedBefore_spelling hd hl
  rw [(cut_lexeme h).text_eq hspelling]
  exact hclosed after

end DeferredTx.Sql
