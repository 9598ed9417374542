import DeferredTx.Proofs.Sql.Numeral

/-!
# How a token is cut from a text

* `Cut`: what a token at the start of a text can be, and what its kind says about the text.
* `cut_lexeme`: every token is cut so.
* `Lexeme.spelling?`, `Cut.text_eq`: **words, numbers and symbols are written as they are read.**
-/

namespace DeferredTx.Sql

open Statement (openers)

variable {d : Dialect} {c : Char} {rest : List Char} {l : Lexeme} {taken : Nat}

/-- What a token at the start of `c :: rest` can be, and the length of what it takes. -/
inductive Cut (d : Dialect) (c : Char) (rest : List Char) : Lexeme → Nat → Prop where
  | string {inside : List Char} {n : Nat} (h : quoted? c d.backslash rest = some (inside, n)) :
      Cut d c rest (.string c (String.ofList inside)) (n + 1)
  | name {close : Char} {inside : List Char} {n : Nat} (hclose : (c, close) ∈ d.nameQuotes)
      (h : quoted? close false rest = some (inside, n)) :
      Cut d c rest (.name c (String.ofList inside)) (n + 1)
  | dollar (tag text : String) (taken : Nat) : Cut d c rest (.dollar tag text) taken
  | bytes (digits : String) (taken : Nat) : Cut d c rest (.bytes digits) taken
  | hexNumber (h : d.hexBytes = false) (n : Nat) :
      Cut d c rest (.number (String.ofList (c :: rest.take n))) (n + 1)
  | number (h : c.isDigit = true ∨ c = '.') :
      Cut d c rest (.number (String.ofList (numeral (c :: rest)))) (numeral (c :: rest)).length
  /-- A name that begins with digits. -/
  | digitName (h : c.isDigit = true ∨ c = '.') :
      Cut d c rest
        (.word (String.ofList (numeral (c :: rest) ++
          ((c :: rest).drop (numeral (c :: rest)).length).takeWhile d.continuesName)))
        ((numeral (c :: rest)).length +
          (((c :: rest).drop (numeral (c :: rest)).length).takeWhile d.continuesName).length)
  | word (h : d.startsName c = true) :
      Cut d c rest (.word (String.ofList (c :: rest.takeWhile d.continuesName)))
        ((rest.takeWhile d.continuesName).length + 1)
  | parameter {p : Char → Bool} (hc : c = '$' ∨ c = '?') (hp : openers.any p = false) :
      Cut d c rest (.parameter (String.ofList (c :: rest.takeWhile p)))
        ((rest.takeWhile p).length + 1)
  | symbol {w : List Char} (h : w <+: c :: rest) (hpositive : 0 < w.length) :
      Cut d c rest (.symbol (String.ofList w)) w.length
  | operator {w : List Char} (h : w <+: c :: rest) (hpositive : 0 < w.length) :
      Cut d c rest (.operator (String.ofList w)) w.length
  | stop (h : c = ';') : Cut d c rest .stop 1
  | illegal : Cut d c rest .illegal 1

/-- A token that begins with a digit or a point. -/
theorem cut_numberLexeme (hc : c.isDigit = true ∨ c = '.')
    (h : numberLexeme d (c :: rest) = (l, taken)) : Cut d c rest l taken := by
  simp only [numberLexeme] at h
  split at h
  · split at h
    · cases h
      exact .bytes _ _
    · rename_i hbytes
      split at h
      · cases h
        exact .illegal
      · cases h
        exact .hexNumber (by simpa using hbytes) _
  split at h
  · rename_i hpoint
    cases h
    have hprefix : ['.'] <+: c :: rest := hpoint ▸ isPrefix_numeral (c :: rest)
    exact .symbol hprefix Nat.one_pos
  split at h
  · cases h
    exact .number hc
  split at h
  · cases h
    exact .illegal
  split at h
  · cases h
    exact .digitName hc
  · cases h
    exact .number hc

theorem cut_dollarLexeme (h : dollarLexeme d rest = (l, taken)) : Cut d '$' rest l taken := by
  simp only [dollarLexeme] at h
  split at h
  · cases h
    exact .parameter (Or.inl rfl) (by decide)
  · split at h
    · split at h
      · cases h
        exact .dollar _ _ _
      · cases h
        exact .illegal
    · cases h
      exact .parameter (Or.inl rfl) (by decide)

theorem cut_symbolLexeme (h : symbolLexeme d c rest = (l, taken)) : Cut d c rest l taken := by
  simp only [symbolLexeme] at h
  generalize hsymbol : (if longSymbols.contains (c :: rest.take 1) = true then c :: rest.take 1
    else [c]) = symbol at h
  have hprefix : symbol <+: c :: rest ∧ 0 < symbol.length := by
    rw [← hsymbol]
    split
    · exact ⟨List.cons_prefix_cons.2 ⟨rfl, List.take_prefix 1 rest⟩, Nat.succ_pos _⟩
    · exact ⟨List.cons_prefix_cons.2 ⟨rfl, List.nil_prefix⟩, Nat.one_pos⟩
  -- where operators are free, the symbol grows
  generalize hmore : (if (d.freeOperators && growingSymbols.contains symbol) = true then
    (rest.drop (symbol.length - 1)).takeWhile operatorChars.contains else []) = more at h
  have hmore' : more <+: (c :: rest).drop symbol.length := by
    rw [← Nat.sub_add_cancel hprefix.2, List.drop_succ_cons, ← hmore]
    split
    · exact List.takeWhile_prefix _
    · exact List.nil_prefix
  split at h
  · cases h
    rw [← List.length_append]
    refine .operator (isPrefix_append hprefix.1 hmore') ?_
    rw [List.length_append]
    omega
  · cases h
    exact .symbol hprefix.1 hprefix.2

/-- **Every token is cut so.** -/
theorem cut_lexeme (h : lexeme d c rest = (l, taken)) : Cut d c rest l taken := by
  unfold lexeme at h
  simp only at h
  split at h
  · split at h
    · rename_i text n hquoted
      cases h
      exact .string hquoted
    · cases h
      exact .illegal
  split at h
  · rename_i close hclose
    split at h
    · rename_i text n hquoted
      cases h
      obtain ⟨p, hp, rfl⟩ := Option.map_eq_some_iff.1 hclose
      have hfound := List.find?_some hp
      obtain rfl : p.1 = c := beq_iff_eq.1 hfound
      exact .name (List.mem_of_find?_eq_some hp) hquoted
    · cases h
      exact .illegal
  split at h
  · split at h
    · cases h
      exact .bytes _ _
    · cases h
      exact .illegal
  split at h
  · rename_i hnumber
    exact cut_numberLexeme (by simpa using hnumber) h
  split at h
  · rename_i hname
    cases h
    exact .word hname
  split at h
  · rename_i hdollar
    obtain rfl : c = '$' := beq_iff_eq.1 hdollar
    exact cut_dollarLexeme h
  split at h
  · rename_i hmark
    simp only [Bool.and_eq_true, beq_iff_eq] at hmark
    cases h
    exact .parameter (Or.inr hmark.1) (by decide)
  split at h
  · rename_i hstop
    cases h
    exact .stop (beq_iff_eq.1 hstop)
  · exact cut_symbolLexeme h

/-- The text that a token stands for which is neither a literal nor illegal. -/
def Lexeme.spelling? : Lexeme → Option (List Char)
  | .word text | .number text | .parameter text | .symbol text | .operator text => some text.toList
  | .stop => some [';']
  | _ => none

theorem cons_take_of_isPrefix {w : List Char} (h : w <+: c :: rest) (hpositive : 0 < w.length) :
    c :: rest.take (w.length - 1) = w := by
  have hwhole := (List.prefix_iff_eq_take.1 h).symm
  rwa [← Nat.sub_add_cancel hpositive, List.take_succ_cons] at hwhole

theorem length_numeral_pos (h : c.isDigit = true ∨ c = '.') (rest : List Char) :
    0 < (numeral (c :: rest)).length :=
  List.length_pos_iff.2 (numeral_ne_nil h rest)

/-- **A token that is no literal is written as it is read.** -/
theorem Cut.text_eq (h : Cut d c rest l taken) {w : List Char} (hl : l.spelling? = some w) :
    c :: rest.take (taken - 1) = w := by
  have hrun : ∀ p : Char → Bool, rest.take (rest.takeWhile p).length = rest.takeWhile p :=
    fun p => (List.prefix_iff_eq_take.1 (List.takeWhile_prefix p)).symm
  cases h with
  | string | name | dollar | bytes | illegal => cases hl
  | hexNumber _ n => simpa [Lexeme.spelling?] using hl
  | number hc =>
    rw [cons_take_of_isPrefix (isPrefix_numeral _) (length_numeral_pos hc rest)]
    simpa [Lexeme.spelling?] using hl
  | digitName hc =>
    rw [← List.length_append, cons_take_of_isPrefix]
    · simpa [Lexeme.spelling?] using hl
    · exact isPrefix_append (isPrefix_numeral _) (List.takeWhile_prefix _)
    · have hpositive := length_numeral_pos hc rest
      rw [List.length_append]
      omega
  | word => simpa [Lexeme.spelling?, hrun] using hl
  | parameter => simpa [Lexeme.spelling?, hrun] using hl
  | symbol hprefix hpositive =>
    rw [cons_take_of_isPrefix hprefix hpositive]
    simpa [Lexeme.spelling?] using hl
  | operator hprefix hpositive =>
    rw [cons_take_of_isPrefix hprefix hpositive]
    simpa [Lexeme.spelling?] using hl
  | stop hc =>
    rw [hc]
    exact Option.some.inj hl

end DeferredTx.Sql
