import DeferredTx.Proofs.Sql.Literal

/-!
# Tokens in front of the end of a line

In the dialect of SQLite no token goes on behind the end of a line, unless it is in quotes. What
follows the end of a line does not matter for a token in front of it.

* `AtLineEnd`: the end of a line, or of the text.
* `Shape`: how the token at the start of a text depends on what follows.
* `lexeme_extend`, `lexeme_restrict`: **a token does not change with what follows the end of its line.**
* `lexeme_endsInLine`: no token ends with the end of a line.
-/

namespace DeferredTx.Sql

open Dialect (sqlite)

/-- Whether a character ends a line. -/
def isLineEnd (c : Char) : Bool :=
  c == '\r' || c == '\n'

/-- The end of a line, or of the text. -/
def AtLineEnd (a : List Char) : Prop :=
  ∀ c ∈ a.head?, isLineEnd c = true

variable {c : Char} {u a rest : List Char}

theorem isLineEnd_iff : isLineEnd c = true ↔ c = '\r' ∨ c = '\n' := by
  simp [isLineEnd]

theorem isLineEnd_of_solid (h : Text.isBlank c = false) : isLineEnd c = false := by
  refine Bool.eq_false_iff.2 fun hend => ?_
  rcases isLineEnd_iff.1 hend with rfl | rfl <;> exact absurd h (by decide)

theorem atLineEnd_feed (a : List Char) : AtLineEnd ('\n' :: a) := by
  rintro _ ⟨⟩
  rfl

theorem AtLineEnd.head_ne (ha : AtLineEnd a) {x : Char} (hx : isLineEnd x = false) :
    a.head? ≠ some x := by
  intro h
  rw [ha x h] at hx
  cases hx

theorem AtLineEnd.head_append (ha : AtLineEnd a) {x : Char} (hx : isLineEnd x = false) (u : List Char) :
    (u ++ a).head? = some x ↔ u.head? = some x := by
  cases u with
  | nil => exact ⟨fun h => absurd h (ha.head_ne hx), nofun⟩
  | cons y u => rfl

theorem AtLineEnd.takeWhile_append (ha : AtLineEnd a) {p : Char → Bool}
    (hp : ∀ c, isLineEnd c = true → p c = false) (u : List Char) :
    (u ++ a).takeWhile p = u.takeWhile p := by
  induction u with
  | nil =>
    cases a with
    | nil => rfl
    | cons e a => simp [hp e (ha e rfl)]
  | cons x u ih =>
    rw [List.cons_append, List.takeWhile_cons, List.takeWhile_cons, ih]

theorem isDigit_of_isLineEnd : ∀ c, isLineEnd c = true → c.isDigit = false := by
  intro c hc
  rcases isLineEnd_iff.1 hc with rfl | rfl <;> decide

theorem exponent_lineEnd (ha : AtLineEnd a) (cs : List Char) : exponent (cs ++ a) = exponent cs := by
  cases cs with
  | nil =>
    cases a with
    | nil => rfl
    | cons e a =>
      rcases isLineEnd_iff.1 (ha e rfl) with rfl | rfl <;> rfl
  | cons e r =>
    have hsign : ∀ c, isLineEnd c = true → (c == '+' || c == '-') = false := by
      intro c hc
      rcases isLineEnd_iff.1 hc with rfl | rfl <;> decide
    have hlength := (List.takeWhile_prefix (l := r) fun c => c == '+' || c == '-').length_le
    simp only [List.cons_append, exponent, ha.takeWhile_append hsign,
      List.drop_append_of_le_length hlength, ha.takeWhile_append isDigit_of_isLineEnd]

theorem numeral_lineEnd (ha : AtLineEnd a) (cs : List Char) : numeral (cs ++ a) = numeral cs := by
  -- the parts of a numeral follow each other, and each is read in front of the end of the line
  have hwhole : cs.takeWhile Char.isDigit <+: cs := List.takeWhile_prefix _
  simp only [numeral, ha.takeWhile_append isDigit_of_isLineEnd,
    List.drop_append_of_le_length hwhole.length_le, ha.head_append (x := '.') rfl]
  generalize cs.takeWhile Char.isDigit = whole at hwhole
  generalize hpoint : (if (cs.drop whole.length).head? = some '.' then ['.'] else []) = point
  have hpointed : whole ++ point <+: cs := by
    refine isPrefix_append hwhole ?_
    rw [← hpoint]
    split
    · rename_i h
      obtain ⟨r, hr⟩ := List.head?_eq_some_iff.1 h
      exact ⟨r, hr.symm⟩
    · exact List.nil_prefix
  rw [← List.length_append, List.drop_append_of_le_length hpointed.length_le,
    ha.takeWhile_append isDigit_of_isLineEnd]
  have hplain : whole ++ point ++ (cs.drop (whole ++ point).length).takeWhile Char.isDigit <+: cs :=
    isPrefix_append hpointed (List.takeWhile_prefix _)
  rw [List.drop_append_of_le_length hplain.length_le, exponent_lineEnd ha]

theorem take_two_eq (c : Char) (r : List Char) (x y : Char) :
    (c :: r).take 2 = [x, y] ↔ c = x ∧ r.head? = some y := by
  cases r <;> simp

theorem continuesName_of_isLineEnd : ∀ c, isLineEnd c = true → sqlite.continuesName c = false := by
  intro c hc
  rcases isLineEnd_iff.1 hc with rfl | rfl <;> decide

theorem hexDigit_of_isLineEnd : ∀ c, isLineEnd c = true → (Text.hexDigit? c).isSome = false := by
  intro c hc
  rcases isLineEnd_iff.1 hc with rfl | rfl <;> decide

/-- A number, or what begins like one, in the dialect of SQLite. -/
theorem numberLexeme_sqlite (cs : List Char) :
    numberLexeme sqlite cs =
      if cs.take 2 = ['0', 'x'] then
        (.bytes (String.ofList ((cs.drop 2).takeWhile fun c => (Text.hexDigit? c).isSome)),
          ((cs.drop 2).takeWhile fun c => (Text.hexDigit? c).isSome).length + 2)
      else if numeral cs = ['.'] then (.symbol ".", 1)
      else (.number (String.ofList (numeral cs)), (numeral cs).length) := by
  simp [numberLexeme, sqlite]

theorem numberLexeme_lineEnd (ha : AtLineEnd a) (c : Char) (u : List Char) :
    numberLexeme sqlite (c :: (u ++ a)) = numberLexeme sqlite (c :: u) := by
  have hnumeral : numeral (c :: (u ++ a)) = numeral (c :: u) := numeral_lineEnd ha (c :: u)
  simp only [numberLexeme_sqlite, hnumeral, take_two_eq, ha.head_append (x := 'x') rfl]
  split
  · rename_i h
    obtain ⟨r, rfl⟩ := List.head?_eq_some_iff.1 h.2
    simp [ha.takeWhile_append hexDigit_of_isLineEnd]
  · rfl

theorem numberLexeme_length (c : Char) (u : List Char) :
    (numberLexeme sqlite (c :: u)).2 ≤ u.length + 1 := by
  rw [numberLexeme_sqlite]
  split
  · rename_i h
    obtain ⟨-, hhead⟩ := (take_two_eq _ _ _ _).1 h
    obtain ⟨r, rfl⟩ := List.head?_eq_some_iff.1 hhead
    have hle := (List.takeWhile_prefix (l := r) fun c => (Text.hexDigit? c).isSome).length_le
    simpa using hle
  · split
    · exact Nat.le_add_left 1 _
    · exact (isPrefix_numeral (c :: u)).length_le

/-- The symbol at the start of `c :: rest`. -/
def symbolAt (c : Char) (rest : List Char) : List Char :=
  if longSymbols.contains (c :: rest.take 1) then c :: rest.take 1 else [c]

theorem symbolLexeme_sqlite (c : Char) (rest : List Char) :
    symbolLexeme sqlite c rest =
      (.symbol (String.ofList (symbolAt c rest)), (symbolAt c rest).length) := by
  simp only [symbolLexeme, sqlite, Bool.false_and, Bool.false_eq_true, if_false, symbolAt]

theorem symbolAt_lineEnd (ha : AtLineEnd a) (c : Char) (u : List Char) :
    symbolAt c (u ++ a) = symbolAt c u := by
  cases u with
  | cons x u => rfl
  | nil =>
    have halone : symbolAt c [] = [c] := by
      unfold symbolAt
      split <;> rfl
    cases a with
    | nil => rfl
    | cons e a =>
      have hnone : longSymbols.contains [c, e] = false := by
        rcases isLineEnd_iff.1 (ha e rfl) with rfl | rfl <;> simp [longSymbols]
      rw [halone, List.nil_append, symbolAt, List.take_succ_cons, List.take_zero, hnone]
      rfl

theorem symbolAt_length (c : Char) (u : List Char) : (symbolAt c u).length ≤ u.length + 1 := by
  unfold symbolAt
  split
  · exact Nat.succ_le_succ ((List.take_prefix 1 u).length_le)
  · exact Nat.le_add_left 1 _

/-- Whether a character goes on with a parameter that a dollar sign begins. -/
def continuesParameter (c : Char) : Bool :=
  (c.isAlphanum || c == '_' || 0x7F < c.toNat) || c == '$'

theorem continuesParameter_of_isLineEnd : ∀ c, isLineEnd c = true → continuesParameter c = false := by
  intro c hc
  rcases isLineEnd_iff.1 hc with rfl | rfl <;> decide

theorem dollarLexeme_sqlite (rest : List Char) :
    dollarLexeme sqlite rest =
      (.parameter (String.ofList ('$' :: rest.takeWhile continuesParameter)),
        (rest.takeWhile continuesParameter).length + 1) :=
  rfl

/-- How the token at the start of `c :: rest` depends on what follows: either it ends with its line at
the latest, or it is in quotes. -/
inductive Shape (c : Char) (rest : List Char) : Prop where
  | plain (h : ∀ u a, rest = u ++ a → AtLineEnd a →
      lexeme sqlite c rest = lexeme sqlite c u ∧ (lexeme sqlite c u).2 ≤ u.length + 1) : Shape c rest
  | quoted (front inner : List Char) (close : Char) (kind : String → Lexeme)
      (hrest : rest = front ++ inner) (hfront : ∀ e ∈ front, isLineEnd e = false)
      (hclose : Text.isBlank close = false)
      (h : ∀ inner, lexeme sqlite c (front ++ inner) =
        match quoted? close false inner with
        | some (text, n) => (kind (String.ofList text), n + front.length + 1)
        | none => (.illegal, 1)) : Shape c rest

/-- What the token at the start of `c :: rest` is, if it is not in quotes. -/
theorem lexeme_plain (htext : c ≠ '\'') (hname : ¬(c = '"' ∨ c = '\x60' ∨ c = '['))
    (hbytes : ¬((c = 'x' ∨ c = 'X') ∧ rest.head? = some '\'')) :
    lexeme sqlite c rest =
      if c.isDigit || c == '.' then numberLexeme sqlite (c :: rest)
      else if sqlite.startsName c then
        (.word (String.ofList (c :: rest.takeWhile sqlite.continuesName)),
          (rest.takeWhile sqlite.continuesName).length + 1)
      else if c == '$' then dollarLexeme sqlite rest
      else if c == '?' && sqlite.questionMark then
        (.parameter (String.ofList (c :: rest.takeWhile Char.isDigit)),
          (rest.takeWhile Char.isDigit).length + 1)
      else if c == ';' then (.stop, 1)
      else symbolLexeme sqlite c rest := by
  have htext' : sqlite.textQuotes.contains c = false := by simp [sqlite, htext]
  have hname' : sqlite.nameQuotes.find? (fun q => q.1 == c) = none := by
    simp only [not_or] at hname
    simp [sqlite, Ne.symm hname.1, Ne.symm hname.2.1, Ne.symm hname.2.2]
  have hbytes' : ((c == 'x' || c == 'X') && rest.head? == some '\'') = false := by
    simpa using hbytes
  unfold lexeme
  simp only [htext', hname', hbytes', Option.map_none, Bool.false_eq_true, if_false]

theorem shape (c : Char) (rest : List Char) : Shape c rest := by
  -- three kinds of tokens are in quotes: texts, names and bytes
  by_cases htext : c = '\''
  · subst htext
    exact .quoted [] rest '\'' (.string '\'') rfl nofun (by decide) fun inner => rfl
  by_cases hname : c = '"' ∨ c = '\x60' ∨ c = '['
  · rcases hname with rfl | rfl | rfl
    · exact .quoted [] rest '"' (.name '"') rfl nofun (by decide) fun inner => rfl
    · exact .quoted [] rest '\x60' (.name '\x60') rfl nofun (by decide) fun inner => rfl
    · exact .quoted [] rest ']' (.name '[') rfl nofun (by decide) fun inner => rfl
  by_cases hbytes : (c = 'x' ∨ c = 'X') ∧ rest.head? = some '\''
  · obtain ⟨hx, hquote⟩ := hbytes
    obtain ⟨inner, rfl⟩ := List.head?_eq_some_iff.1 hquote
    have hfront : ∀ e ∈ ['\''], isLineEnd e = false := List.forall_mem_singleton.2 rfl
    refine .quoted ['\''] inner '\'' .bytes rfl hfront (by decide) fun inner => ?_
    rcases hx with rfl | rfl <;> rfl
  refine .plain fun u a hrest ha => ?_
  subst hrest
  have hbytes' : ¬((c = 'x' ∨ c = 'X') ∧ u.head? = some '\'') := by
    rwa [← ha.head_append (x := '\'') rfl]
  rw [lexeme_plain htext hname hbytes, lexeme_plain htext hname hbytes']
  split
  · exact ⟨numberLexeme_lineEnd ha c u, numberLexeme_length c u⟩
  split
  · rw [ha.takeWhile_append continuesName_of_isLineEnd]
    exact ⟨rfl, Nat.succ_le_succ (List.takeWhile_prefix _).length_le⟩
  split
  · rw [dollarLexeme_sqlite, dollarLexeme_sqlite, ha.takeWhile_append continuesParameter_of_isLineEnd]
    exact ⟨rfl, Nat.succ_le_succ (List.takeWhile_prefix _).length_le⟩
  split
  · rw [ha.takeWhile_append isDigit_of_isLineEnd]
    exact ⟨rfl, Nat.succ_le_succ (List.takeWhile_prefix _).length_le⟩
  split
  · exact ⟨rfl, Nat.le_add_left 1 _⟩
  · rw [symbolLexeme_sqlite, symbolLexeme_sqlite, symbolAt_lineEnd ha]
    exact ⟨rfl, symbolAt_length c u⟩

section Quoted

variable {q : Char} {cs inside : List Char} {n : Nat}

/-- What is in quotes goes up to the first quote that is not written twice. -/
theorem quoted?_of_doubled (hrest : rest.head? ≠ some q) (inside : List Char) :
    quoted? q false (doubled q inside ++ q :: rest) = some (inside, (doubled q inside).length + 1) := by
  induction inside with
  | nil =>
    cases rest with
    | nil => simp [doubled, quoted?]
    | cons e rest =>
      have he : e ≠ q := fun heq => hrest (congrArg some heq)
      simp [doubled, quoted?, he]
  | cons c inside ih =>
    by_cases hc : c = q
    · subst hc
      simp [doubled_cons_self, quoted?, ih]
    · rw [doubled_cons_of_ne hc, List.cons_append, quoted?.eq_def]
      simp [hc, ih]

theorem quoted?_eq_some_iff : quoted? q false cs = some (inside, n) ↔
    ∃ rest, cs = doubled q inside ++ q :: rest ∧ rest.head? ≠ some q ∧
      n = (doubled q inside).length + 1 := by
  constructor
  · intro h
    obtain ⟨htake, hdrop, hn⟩ := quoted?_spec h nofun
    refine ⟨cs.drop n, ?_, hdrop, hn⟩
    rw [List.append_cons, ← htake, List.take_append_drop]
  · rintro ⟨rest, rfl, hrest, rfl⟩
    exact quoted?_of_doubled hrest inside

theorem quoted?_extend (ha : a.head? ≠ some q) (h : quoted? q false u = some (inside, n)) :
    quoted? q false (u ++ a) = some (inside, n) := by
  obtain ⟨rest, rfl, hrest, hn⟩ := quoted?_eq_some_iff.1 h
  refine quoted?_eq_some_iff.2 ⟨rest ++ a, by simp, ?_, hn⟩
  cases rest with
  | nil => exact ha
  | cons e rest => exact hrest

theorem quoted?_restrict (h : quoted? q false (u ++ a) = some (inside, n)) (hn : n ≤ u.length) :
    quoted? q false u = some (inside, n) := by
  obtain ⟨rest, heq, hrest, rfl⟩ := quoted?_eq_some_iff.1 h
  have hprefix : doubled q inside ++ [q] <+: u := by
    have hwhole : doubled q inside ++ [q] <+: u ++ a := ⟨rest, by simp [heq]⟩
    exact List.prefix_of_prefix_length_le hwhole (List.prefix_append u a) (by simpa using hn)
  obtain ⟨rest', rfl⟩ := hprefix
  refine quoted?_eq_some_iff.2 ⟨rest', by simp, ?_, rfl⟩
  obtain rfl : rest = rest' ++ a := by simpa using heq.symm
  cases rest' with
  | nil => exact nofun
  | cons e rest' => exact hrest

theorem quoted?_last (h : quoted? q false cs = some (inside, n)) :
    n ≤ cs.length ∧ (cs.take n).getLast? = some q := by
  obtain ⟨rest, rfl, hrest, rfl⟩ := quoted?_eq_some_iff.1 h
  constructor
  · simp
  · rw [List.append_cons, List.take_left' (by simp)]
    simp

end Quoted

section Ends

variable {l : Lexeme} {n : Nat}

theorem AtLineEnd.isPrefix (ha : AtLineEnd a) {front inner : List Char} (heq : u ++ a = front ++ inner)
    (hfront : ∀ e ∈ front, isLineEnd e = false) : front <+: u := by
  rcases List.append_eq_append_iff.1 heq with ⟨between, rfl, hbetween⟩ | ⟨between, rfl, -⟩
  · cases between with
    | nil => exact ⟨[], by simp⟩
    | cons e between =>
      have hend := ha e (by simp [hbetween])
      rw [hfront e (by simp)] at hend
      cases hend
  · exact List.prefix_append front between

/-- A token goes on being the same if something follows the end of its line. -/
theorem lexeme_extend (ha : AtLineEnd a) (h : lexeme sqlite c u = (l, n)) (hl : l ≠ .illegal) :
    lexeme sqlite c (u ++ a) = (l, n) := by
  cases shape c (u ++ a) with
  | plain hplain =>
    rw [(hplain u a rfl ha).1, h]
  | quoted front inner close kind hrest hfront hclose hquoted =>
    obtain ⟨inner', rfl⟩ := ha.isPrefix hrest hfront
    rw [hquoted] at h
    rw [List.append_assoc, hquoted]
    cases hinner : quoted? close false inner' with
    | none =>
      rw [hinner] at h
      obtain ⟨rfl, -⟩ := Prod.mk.inj h
      exact absurd rfl hl
    | some p =>
      rw [hinner] at h
      rw [quoted?_extend (ha.head_ne (isLineEnd_of_solid hclose)) hinner]
      exact h

theorem lexeme_restrict (ha : AtLineEnd a) (h : lexeme sqlite c (u ++ a) = (l, n)) (hl : l ≠ .illegal)
    (hn : n ≤ u.length + 1) : lexeme sqlite c u = (l, n) := by
  cases shape c (u ++ a) with
  | plain hplain =>
    rw [← (hplain u a rfl ha).1, h]
  | quoted front inner close kind hrest hfront hclose hquoted =>
    obtain ⟨inner', rfl⟩ := ha.isPrefix hrest hfront
    rw [List.append_assoc, hquoted] at h
    rw [hquoted]
    cases hinner : quoted? close false (inner' ++ a) with
    | none =>
      rw [hinner] at h
      obtain ⟨rfl, -⟩ := Prod.mk.inj h
      exact absurd rfl hl
    | some p =>
      rw [hinner] at h
      obtain ⟨rfl, rfl⟩ := Prod.mk.inj h
      have hle : p.2 ≤ inner'.length := by
        rw [List.length_append] at hn
        omega
      rw [quoted?_restrict hinner hle]

/-- A text that ends on the line that it begins on, or not with a blank. -/
def EndsInLine (cs : List Char) : Prop :=
  (∀ e ∈ cs, isLineEnd e = false) ∨ ∃ e, cs.getLast? = some e ∧ Text.isBlank e = false

/-- **No token ends with the end of a line.** -/
theorem lexeme_endsInLine (hc : isLineEnd c = false) (h : lexeme sqlite c rest = (l, n))
    (hl : l ≠ .illegal) :
    n ≤ rest.length + 1 ∧ EndsInLine (c :: rest.take (n - 1)) := by
  cases shape c rest with
  | plain hplain =>
    -- nothing of the token stands behind the end of the line
    have hrest := List.takeWhile_append_dropWhile (p := fun e => !isLineEnd e) (l := rest)
    have hat : AtLineEnd (rest.dropWhile fun e => !isLineEnd e) := by
      intro e he
      have hstop := List.head?_dropWhile_not (fun e => !isLineEnd e) rest
      simpa [Option.mem_def.1 he] using hstop
    obtain ⟨hline, hlength⟩ := hplain _ _ hrest.symm hat
    rw [hline] at h
    rw [h] at hlength
    have hprefix : rest.takeWhile (fun e => !isLineEnd e) <+: rest := List.takeWhile_prefix _
    refine ⟨Nat.le_trans hlength (Nat.succ_le_succ hprefix.length_le), Or.inl fun e he => ?_⟩
    rcases List.mem_cons.1 he with rfl | he
    · exact hc
    · have htake : rest.take (n - 1) <+: rest.takeWhile fun e => !isLineEnd e := by
        refine List.prefix_of_prefix_length_le (List.take_prefix _ _) hprefix ?_
        have hle : n - 1 ≤ (rest.takeWhile fun e => !isLineEnd e).length := Nat.sub_le_of_le_add hlength
        exact Nat.le_trans (List.length_take_le _ _) hle
      have hfree := List.all_eq_true.1 (List.all_takeWhile (p := fun e => !isLineEnd e) (l := rest)) e
        (htake.subset he)
      simpa using hfree
  | quoted front inner close kind hrest hfront hclose hquoted =>
    subst hrest
    rw [hquoted] at h
    cases hinner : quoted? close false inner with
    | none =>
      rw [hinner] at h
      obtain ⟨rfl, -⟩ := Prod.mk.inj h
      exact absurd rfl hl
    | some p =>
      rw [hinner] at h
      obtain ⟨rfl, rfl⟩ := Prod.mk.inj h
      obtain ⟨hle, hlast⟩ := quoted?_last hinner
      refine ⟨by rw [List.length_append]; omega, Or.inr ⟨close, ?_, hclose⟩⟩
      rw [Nat.add_sub_cancel, Nat.add_comm, List.take_length_add_append, ← List.cons_append,
        List.getLast?_append, hlast]
      rfl

end Ends

end DeferredTx.Sql
