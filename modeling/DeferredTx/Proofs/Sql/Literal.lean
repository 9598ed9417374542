import DeferredTx.Proofs.Sql.Simple

/-!
# Literals in quotes that the scanner reads as they are cut

The scanner knows no doubled quotes: it takes the first of them for the end of the literal, and the
second for the beginning of another one. That comes to the same unless a third quote follows.

* `doubled`: the inside of a literal as it is written.
* `isTame`: whether no quote of an inside makes three with those around it, and the line is not left.
* `quoted?_spec`: how the inside of a literal is written.
* `Token.isTame`: a literal in plain quotes of this kind, without backslashes.
* `closedBefore_tame`: **the scanner passes over every such literal.**
-/

namespace DeferredTx.Sql

open Statement (Mode advance reading closedBefore isQuote isLineBreak)

/-- The inside of a literal as it is written, with its quotes twice. -/
def doubled (q : Char) (inside : List Char) : List Char :=
  inside.flatMap fun c => if c = q then [q, q] else [c]

/-- Whether the inside of a literal holds no line break, and no quote behind another one.
`afterQuote` tells whether one stands in front of it. -/
def isTame (q : Char) : Bool → List Char → Bool
  | _, [] => true
  | afterQuote, c :: r => !isLineBreak c && !(afterQuote && c == q) && isTame q (c == q) r

variable {q : Char} {inside cs after : List Char} {n : Nat}

theorem doubled_cons_self (q : Char) (inside : List Char) :
    doubled q (q :: inside) = q :: q :: doubled q inside := by
  simp [doubled]

theorem doubled_cons_of_ne {c : Char} (h : c ≠ q) (inside : List Char) :
    doubled q (c :: inside) = c :: doubled q inside := by
  simp [doubled, h]

/-- How the inside of a literal is written where a backslash means nothing or does not occur. -/
theorem quoted?_spec {backslash : Bool} (h : quoted? q backslash cs = some (inside, n))
    (hplain : backslash = true → '\\' ∉ cs.take n) :
    cs.take n = doubled q inside ++ [q] ∧ (cs.drop n).head? ≠ some q ∧
      n = (doubled q inside).length + 1 := by
  fun_induction quoted? q backslash cs generalizing inside n with
  | case1 => cases h
  | case2 r ih =>
    -- a quote written twice
    obtain ⟨⟨more, m⟩, hmore, heq⟩ := Option.map_eq_some_iff.1 h
    cases heq
    have hrest : backslash = true → '\\' ∉ r.take m := fun hb hm => hplain hb (by simp [hm])
    obtain ⟨htake, hdrop, rfl⟩ := ih hmore hrest
    refine ⟨?_, by simpa using hdrop, by simp [doubled_cons_self]⟩
    rw [doubled_cons_self, List.take_succ_cons, List.take_succ_cons, htake]
    rfl
  | case3 e r he =>
    cases h
    exact ⟨rfl, by simpa using he, rfl⟩
  | case4 =>
    cases h
    exact ⟨rfl, by simp, rfl⟩
  | case5 c hc hback e r =>
    -- a backslash is ruled out
    obtain ⟨⟨more, m⟩, hmore, heq⟩ := Option.map_eq_some_iff.1 h
    cases heq
    simp only [Bool.and_eq_true, beq_iff_eq] at hback
    exact absurd (by simp [hback.2]) (hplain hback.1)
  | case6 => cases h
  | case7 c r hc hback ih =>
    obtain ⟨⟨more, m⟩, hmore, heq⟩ := Option.map_eq_some_iff.1 h
    cases heq
    have hrest : backslash = true → '\\' ∉ r.take m := fun hb hm => hplain hb (by simp [hm])
    obtain ⟨htake, hdrop, rfl⟩ := ih hmore hrest
    refine ⟨?_, by simpa using hdrop, by simp [doubled_cons_of_ne hc]⟩
    rw [doubled_cons_of_ne hc, List.take_succ_cons, htake]
    rfl

/-- A quote with no two quotes behind it opens a literal of one line. -/
theorem advance_quote (hq : isQuote q = true) {rest : List Char} (h : rest.take 2 ≠ [q, q]) :
    advance .code q rest = some (true, .literal q false false) := by
  rw [Statement.advance_isQuote hq, if_neg h]

/-- Behind a quote, the inside of a tame literal does not go on with two more. -/
theorem take_two_inside (h : isTame q true inside = true) (hafter : after.head? ≠ some q) :
    (doubled q inside ++ [q] ++ after).take 2 ≠ [q, q] := by
  cases inside with
  | nil =>
    cases after with
    | nil => simp [doubled]
    | cons c after => simpa [doubled] using hafter
  | cons c inside =>
    have hc : c ≠ q := by
      rintro rfl
      simp [isTame] at h
    simp [doubled_cons_of_ne hc, hc]

/-- The scanner reads the inside of a tame literal up to the closing quote. -/
theorem reading_inside (hq : isQuote q = true) (hafter : after.head? ≠ some q) :
    ∀ {afterQuote : Bool} {inside : List Char}, isTame q afterQuote inside = true → '\\' ∉ inside →
      ∃ kept, reading (.literal q false false) (doubled q inside ++ [q]) after = some (kept, .code)
  | _, [], _, _ => by
    have hcases : q = '\'' ∨ q = '"' ∨ q = '\x60' := by
      simpa [isQuote, or_assoc] using hq
    rcases hcases with rfl | rfl | rfl <;> exact ⟨_, rfl⟩
  | afterQuote, c :: inside, htame, hback => by
    simp only [isTame, Bool.and_eq_true, Bool.not_eq_true'] at htame
    obtain ⟨⟨hline, -⟩, hinside⟩ := htame
    have hback' : c ≠ '\\' ∧ '\\' ∉ inside := by
      simpa [eq_comm] using hback
    obtain ⟨kept, hkept⟩ := reading_inside hq hafter hinside hback'.2
    by_cases hc : c = q
    · -- the literal ends, and the next one begins
      subst hc
      rw [beq_self_eq_true] at hinside
      have htwo := take_two_inside hinside hafter
      have hclose : ∀ rest, advance (.literal c false false) c rest = some (true, .code) := by
        intro rest
        simp [advance, hline, hback'.1]
      refine ⟨c :: c :: kept, ?_⟩
      rw [doubled_cons_self]
      simp only [List.cons_append, reading, hclose, advance_quote hq htwo, hkept]
      rfl
    · have hstay : ∀ rest, advance (.literal q false false) c rest =
          some (true, .literal q false false) := by
        intro rest
        simp [advance, hline, hback'.1, hc]
      refine ⟨c :: kept, ?_⟩
      rw [doubled_cons_of_ne hc]
      simp only [List.cons_append, reading, hstay, hkept]
      rfl

/-- The quote of a literal, and its inside. -/
def Lexeme.literal? : Lexeme → Option (Char × List Char)
  | .string q text | .name q text => some (q, text.toList)
  | _ => none

variable {d : Dialect} {c : Char} {rest : List Char} {l : Lexeme} {taken : Nat}

/-- A literal in plain quotes begins with its quote and ends where the quote is met again. -/
theorem Cut.quoted?_eq (hd : d.IsScript) (h : Cut d c rest l taken)
    (hl : l.literal? = some (q, inside)) (hq : isQuote q = true) :
    c = q ∧ ∃ backslash n, quoted? q backslash rest = some (inside, n) ∧ taken = n + 1 := by
  cases h with
  | string hquoted =>
    obtain ⟨rfl, rfl⟩ : c = q ∧ _ = inside := by simpa [Lexeme.literal?] using hl
    exact ⟨rfl, d.backslash, _, hquoted, rfl⟩
  | @name close _ _ hclose hquoted =>
    obtain ⟨rfl, rfl⟩ : c = q ∧ _ = inside := by simpa [Lexeme.literal?] using hl
    have hsame : close = c := hd.closes hclose hq
    rw [hsame] at hquoted
    exact ⟨rfl, false, _, hquoted, rfl⟩
  | dollar | bytes | hexNumber | number | digitName | word | parameter | symbol | operator | stop
  | illegal => cases hl

/-- Whether a token is a literal in plain quotes, without line breaks, backslashes and quotes that
make three with those around them. -/
def Token.isTame (t : Token) : Bool :=
  match t.lexeme.literal? with
  | some (q, inside) => isQuote q && !t.text.contains '\\' && Sql.isTame q true inside
  | none => false

/-- **The scanner passes over every tame literal**, wherever it stands. -/
theorem closedBefore_tame (hd : d.IsScript) {gap : List Char} (h : lexeme d c rest = (l, taken))
    (ht : Token.isTame ⟨l, gap, c :: rest.take (taken - 1)⟩ = true) :
    closedBefore (c :: rest.take (taken - 1)) (rest.drop (taken - 1)) = true := by
  unfold Token.isTame at ht
  split at ht
  · rename_i q inside hl
    simp only [Bool.and_eq_true, Bool.not_eq_true', List.contains_eq_mem, decide_eq_false_iff_not] at ht
    obtain ⟨⟨hq, hback⟩, htame⟩ := ht
    obtain ⟨rfl, backslash, n, hquoted, rfl⟩ := (cut_lexeme h).quoted?_eq hd hl hq
    rw [Nat.add_sub_cancel] at hback ⊢
    have hplain : '\\' ∉ rest.take n := fun hm => hback (List.mem_cons_of_mem _ hm)
    obtain ⟨htake, hdrop, -⟩ := quoted?_spec hquoted fun _ => hplain
    have hinside : '\\' ∉ inside := by
      intro hm
      refine hplain (htake ▸ List.mem_append_left _ ?_)
      refine List.mem_flatMap.2 ⟨_, hm, ?_⟩
      split
      · rename_i hslash
        simp [← hslash]
      · exact List.mem_singleton.2 rfl
    obtain ⟨kept, hkept⟩ := reading_inside hq hdrop htame hinside
    have htwo := take_two_inside htame hdrop
    rw [htake]
    simp only [closedBefore, reading, advance_quote hq htwo, hkept]
    rfl
  · cases ht

end DeferredTx.Sql
