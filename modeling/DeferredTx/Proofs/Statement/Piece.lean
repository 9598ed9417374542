import DeferredTx.Statement.Scan

/-!
# The pieces of a text

Read from left to right, a text is a sequence of pieces: comments, literals, and single characters
outside of both. At each point the piece is the first that applies of a line comment, a block comment,
a literal in triple quotes, a literal in plain quotes, and one other character. None of this mentions
a scanner.

* `BlockTail`, `LiteralTail`: what stands behind the opening of a block comment and of a literal.
* `Front`: the piece that a text begins with, and what follows it; nothing if it is a literal that is
  not closed.
* `Reading`: the pieces of a text; nothing if one of its literals is not closed.
* `Reading.text_eq`: the pieces, one after another, are the text.
* `existsUnique_reading`: **every text has exactly one reading.**
-/

namespace DeferredTx.Statement

/-- A piece of a text. -/
inductive Piece where
  | comment (text : List Char)
  | literal (text : List Char)
  | other (c : Char)
  deriving DecidableEq, Repr

namespace Piece

/-- The characters of a piece. -/
def text : Piece → List Char
  | comment t | literal t => t
  | other c => [c]

/-- The characters of a piece that are left when comments are taken out. -/
def kept : Piece → List Char
  | comment _ => []
  | literal t => t
  | other c => [c]

end Piece

/-- Behind the opening of a block comment: what belongs to it, up to the first star and slash or to
the end of the text, and what follows it. -/
inductive BlockTail : List Char → List Char → List Char → Prop where
  | close {s rest : List Char} (hs : s = '*' :: '/' :: rest) : BlockTail s ['*', '/'] rest
  | more {c : Char} {s body rest : List Char} (hc : ¬ ['*', '/'] <+: c :: s)
      (h : BlockTail s body rest) : BlockTail (c :: s) (c :: body) rest
  | ended : BlockTail [] [] []

/-- The quotes on either side of a literal. -/
def quotes (q : Char) (triple : Bool) : List Char :=
  if triple then [q, q, q] else [q]

/-- Whether a literal may hold a character: a line break stands in triple quotes only. -/
def mayHold (triple : Bool) (c : Char) : Bool :=
  triple || !isLineBreak c

/-- A character of a literal, with the backslash in front that protects it, if there is one. -/
inductive IsSymbol : List Char → Prop where
  | bare {c : Char} (hc : c ≠ '\\') : IsSymbol [c]
  | guarded (c : Char) : IsSymbol ['\\', c]

/-- Behind the opening of a literal: what belongs to it and what follows it, or nothing if the literal
is not closed. -/
inductive LiteralTail (q : Char) (triple : Bool) :
    List Char → Option (List Char × List Char) → Prop where
  /-- The first quotes that no backslash protects close the literal. -/
  | close {s rest : List Char} (hs : s = quotes q triple ++ rest) :
      LiteralTail q triple s (some (quotes q triple, rest))
  | symbol {s x t : List Char} {r : Option (List Char × List Char)} (hs : s = x ++ t)
      (hx : IsSymbol x) (hopen : ¬ quotes q triple <+: s) (hmay : x.all (mayHold triple) = true)
      (h : LiteralTail q triple t r) :
      LiteralTail q triple s (r.map fun p => (x ++ p.1, p.2))
  /-- Not even a backslash lets a plain literal hold a line break. -/
  | broken {s x t : List Char} (hs : s = x ++ t) (hx : IsSymbol x)
      (hmay : x.all (mayHold triple) = false) : LiteralTail q triple s none
  /-- The text ends before the literal does. -/
  | ended {s : List Char} (hs : s = [] ∨ s = ['\\']) : LiteralTail q triple s none

/-- What opens a line comment. -/
def lineOpenings : List (List Char) :=
  [['#'], ['-', '-']]

/-- Whether a comment or a literal opens a text. -/
def Opens (s : List Char) : Prop :=
  (∃ opening ∈ lineOpenings, opening <+: s) ∨ ['/', '*'] <+: s ∨ ∃ q, isQuote q = true ∧ [q] <+: s

/-- The piece that a text begins with and what follows it, or nothing if that piece is a literal that
is not closed. -/
inductive Front : List Char → Option (Piece × List Char) → Prop where
  /-- A line comment leaves the line feed behind it. -/
  | line {s opening t : List Char} (ho : opening ∈ lineOpenings) (hs : s = opening ++ t) :
      Front s (some (.comment (opening ++ t.takeWhile (· != '\n')), t.dropWhile (· != '\n')))
  | block {s t body rest : List Char} (hs : s = ['/', '*'] ++ t) (h : BlockTail t body rest) :
      Front s (some (.comment (['/', '*'] ++ body), rest))
  /-- Three equal quotes open a literal in triple quotes. -/
  | literal {s t : List Char} {q : Char} {triple : Bool} {r : Option (List Char × List Char)}
      (hq : isQuote q = true) (hs : s = quotes q triple ++ t)
      (hfirst : triple = false → ¬ quotes q true <+: s) (h : LiteralTail q triple t r) :
      Front s (r.map fun p => (.literal (quotes q triple ++ p.1), p.2))
  | other {c : Char} {s : List Char} (hc : ¬ Opens (c :: s)) : Front (c :: s) (some (.other c, s))

/-- The pieces of a text in order, or nothing if one of its literals is not closed. -/
inductive Reading : List Char → Option (List Piece) → Prop where
  | nil : Reading [] (some [])
  | piece {s rest : List Char} {p : Piece} {r : Option (List Piece)} (h : Front s (some (p, rest)))
      (hr : Reading rest r) : Reading s (r.map (p :: ·))
  | unclosed {s : List Char} (h : Front s none) : Reading s none

section Block

variable {s body rest body' rest' : List Char}

theorem BlockTail.text_eq (h : BlockTail s body rest) : s = body ++ rest := by
  induction h with
  | close hs => exact hs
  | more _ _ ih => rw [ih]; rfl
  | ended => rfl

theorem BlockTail.unique (h : BlockTail s body rest) (h' : BlockTail s body' rest') :
    body = body' ∧ rest = rest' := by
  induction h generalizing body' with
  | close hs =>
    subst hs
    cases h' with
    | close hs' => exact ⟨rfl, by simpa using hs'⟩
    | more hc => exact absurd ⟨_, rfl⟩ hc
  | more hc _ ih =>
    cases h' with
    | close hs' => exact absurd ⟨_, hs'.symm⟩ hc
    | more _ h' =>
      obtain ⟨rfl, rfl⟩ := ih h'
      exact ⟨rfl, rfl⟩
  | ended =>
    cases h' with
    | close hs' => cases hs'
    | ended => exact ⟨rfl, rfl⟩

theorem exists_blockTail : ∀ s : List Char, ∃ body rest, BlockTail s body rest
  | [] => ⟨[], [], .ended⟩
  | c :: s => by
    by_cases hc : ['*', '/'] <+: c :: s
    · obtain ⟨rest, hrest⟩ := hc
      exact ⟨_, rest, .close hrest.symm⟩
    · obtain ⟨body, rest, h⟩ := exists_blockTail s
      exact ⟨_, rest, .more hc h⟩

end Block

section Literal

variable {q : Char} {triple : Bool} {s t x y : List Char}
  {r r' : Option (List Char × List Char)}

theorem quotes_eq_cons (q : Char) (triple : Bool) : ∃ more, quotes q triple = q :: more := by
  cases triple
  · exact ⟨[], rfl⟩
  · exact ⟨[q, q], rfl⟩

/-- A quote is neither a line break nor a backslash. -/
theorem isSymbol_of_isQuote (hq : isQuote q = true) (triple : Bool) :
    IsSymbol [q] ∧ mayHold triple q = true := by
  simp only [isQuote, Bool.or_eq_true, beq_iff_eq] at hq
  rcases hq with (rfl | rfl) | rfl
  all_goals exact ⟨.bare (by decide), by cases triple <;> decide⟩

/-- No symbol is the beginning of another one. -/
theorem IsSymbol.append_inj (hx : IsSymbol x) (hy : IsSymbol y) (h : x ++ s = y ++ t) :
    x = y ∧ s = t := by
  cases hx with
  | bare hc =>
    cases hy with
    | bare => simpa using h
    | guarded d => exact absurd (List.cons.inj h).1 hc
  | guarded c =>
    cases hy with
    | bare hd => exact absurd (List.cons.inj h).1.symm hd
    | guarded d => simpa using h

/-- Where no symbol begins the text ends, but for a backslash that protects nothing. -/
theorem symbol_cases (s : List Char) :
    (s = [] ∨ s = ['\\']) ∨ ∃ x t, IsSymbol x ∧ s = x ++ t := by
  cases s with
  | nil => exact Or.inl (Or.inl rfl)
  | cons c s =>
    by_cases hc : c = '\\'
    · cases s with
      | nil => exact Or.inl (Or.inr (by rw [hc]))
      | cons d t => exact Or.inr ⟨['\\', d], t, .guarded d, by rw [hc]; rfl⟩
    · exact Or.inr ⟨[c], s, .bare hc, rfl⟩

theorem IsSymbol.not_ended (hx : IsSymbol x) : ¬ (x ++ t = [] ∨ x ++ t = ['\\']) := by
  cases hx with
  | bare hc => simp [hc]
  | guarded c => simp

theorem LiteralTail.text_eq (h : LiteralTail q triple s r) : ∀ p, r = some p → s = p.1 ++ p.2 := by
  induction h with
  | close hs =>
    rintro _ ⟨⟩
    exact hs
  | symbol hs _ _ _ _ ih =>
    intro p hp
    obtain ⟨p', rfl, rfl⟩ := Option.map_eq_some_iff.1 hp
    rw [hs, ih p' rfl, List.append_assoc]
  | broken | ended => exact nofun

/-- The quotes that close a literal begin with a symbol that it may hold. -/
theorem mayHold_of_quotes (hq : isQuote q = true) (hx : IsSymbol x)
    (h : quotes q triple ++ s = x ++ t) : x.all (mayHold triple) = true := by
  obtain ⟨more, hmore⟩ := quotes_eq_cons q triple
  obtain ⟨hsymbol, hmay⟩ := isSymbol_of_isQuote hq triple
  rw [hmore, List.cons_append] at h
  obtain ⟨rfl, -⟩ := hsymbol.append_inj hx h
  simpa using hmay

theorem LiteralTail.unique (hq : isQuote q = true) (h : LiteralTail q triple s r)
    (h' : LiteralTail q triple s r') : r = r' := by
  have hquotes : ∀ {rest : List Char}, ¬ (quotes q triple ++ rest = [] ∨
      quotes q triple ++ rest = ['\\']) := by
    intro rest
    obtain ⟨more, hmore⟩ := quotes_eq_cons q triple
    rw [hmore]
    exact (isSymbol_of_isQuote hq triple).1.not_ended
  induction h generalizing r' with
  | close hs =>
    subst hs
    cases h' with
    | close hs' => rw [List.append_cancel_left hs']
    | symbol _ _ hopen => exact absurd ⟨_, rfl⟩ hopen
    | broken hs' hx hmay => exact absurd (mayHold_of_quotes hq hx hs') (by simp [hmay])
    | ended hs' => exact absurd hs' hquotes
  | symbol hs hx hopen hmay _ ih =>
    cases h' with
    | close hs' => exact absurd ⟨_, hs'.symm⟩ hopen
    | symbol hs' hx' _ _ h' =>
      obtain ⟨rfl, rfl⟩ := hx.append_inj hx' (hs.symm.trans hs')
      rw [ih h']
    | broken hs' hx' hmay' =>
      obtain ⟨rfl, -⟩ := hx.append_inj hx' (hs.symm.trans hs')
      exact absurd hmay (by simp [hmay'])
    | ended hs' => exact absurd hs' (hs ▸ hx.not_ended)
  | broken hs hx hmay =>
    cases h' with
    | close hs' => exact absurd (mayHold_of_quotes hq hx (hs'.symm.trans hs)) (by simp [hmay])
    | symbol hs' hx' _ hmay' =>
      obtain ⟨rfl, -⟩ := hx.append_inj hx' (hs.symm.trans hs')
      exact absurd hmay' (by simp [hmay])
    | broken | ended => rfl
  | ended hs =>
    cases h' with
    | close hs' => exact absurd (hs' ▸ hs) hquotes
    | symbol hs' hx => exact absurd (hs' ▸ hs) hx.not_ended
    | broken | ended => rfl

theorem exists_literalTail (q : Char) (triple : Bool) (s : List Char) :
    ∃ r, LiteralTail q triple s r := by
  by_cases hopen : quotes q triple <+: s
  · obtain ⟨rest, hrest⟩ := hopen
    exact ⟨_, .close hrest.symm⟩
  rcases symbol_cases s with hs | ⟨x, t, hx, hs⟩
  · exact ⟨none, .ended hs⟩
  cases hmay : x.all (mayHold triple) with
  | false => exact ⟨none, .broken hs hx hmay⟩
  | true =>
    have hshorter : t.length < s.length := by
      rw [hs, List.length_append]
      cases hx <;> simp
    obtain ⟨r, h⟩ := exists_literalTail q triple t
    exact ⟨_, .symbol hs hx hopen hmay h⟩
termination_by s.length

end Literal

section Front

variable {s rest : List Char} {p : Piece} {r r' : Option (Piece × List Char)}

/-- What opens a line comment begins like no other opening. -/
theorem lineOpening_cases {opening : List Char} (h : opening ∈ lineOpenings) :
    ∃ c more, opening = c :: more ∧ isQuote c = false ∧ c ≠ '/' := by
  simp only [lineOpenings, List.mem_cons, List.not_mem_nil, or_false] at h
  rcases h with rfl | rfl
  · exact ⟨'#', [], rfl, by decide, by decide⟩
  · exact ⟨'-', ['-'], rfl, by decide, by decide⟩

theorem lineOpening_inj {o o' t t' : List Char} (h : o ∈ lineOpenings) (h' : o' ∈ lineOpenings)
    (heq : o ++ t = o' ++ t') : o = o' ∧ t = t' := by
  simp only [lineOpenings, List.mem_cons, List.not_mem_nil, or_false] at h h'
  rcases h with rfl | rfl <;> rcases h' with rfl | rfl <;> simp_all

/-- A text that a literal opens begins with its quote. -/
theorem exists_of_quotes {q : Char} {triple : Bool} {t : List Char} (hs : s = quotes q triple ++ t) :
    ∃ u, s = q :: u := by
  obtain ⟨more, hmore⟩ := quotes_eq_cons q triple
  exact ⟨more ++ t, by rw [hs, hmore]; rfl⟩

theorem Front.text_eq (h : Front s (some (p, rest))) : s = p.text ++ rest := by
  generalize hr : some (p, rest) = r at h
  cases h with
  | line _ hs =>
    cases hr
    rw [hs, Piece.text, List.append_assoc, List.takeWhile_append_dropWhile]
  | block hs h =>
    cases hr
    rw [hs, Piece.text, List.append_assoc, ← h.text_eq]
  | literal _ hs _ h =>
    obtain ⟨p', hp, heq⟩ := Option.map_eq_some_iff.1 hr.symm
    cases heq
    rw [hs, Piece.text, List.append_assoc, ← h.text_eq p' hp]
  | other =>
    cases hr
    rfl

theorem Front.text_ne_nil (h : Front s (some (p, rest))) : p.text ≠ [] := by
  generalize hr : some (p, rest) = r at h
  cases h with
  | line ho =>
    obtain ⟨c, more, rfl, -⟩ := lineOpening_cases ho
    cases hr
    exact List.cons_ne_nil _ _
  | block =>
    cases hr
    exact List.cons_ne_nil _ _
  | @literal _ _ q triple =>
    obtain ⟨p', -, heq⟩ := Option.map_eq_some_iff.1 hr.symm
    obtain ⟨more, hmore⟩ := quotes_eq_cons q triple
    cases heq
    rw [Piece.text, hmore]
    exact List.cons_ne_nil _ _
  | other =>
    cases hr
    exact List.cons_ne_nil _ _

/-- Of two literals at the front of a text, both are in triple quotes or neither is. -/
theorem quotes_inj {q q' : Char} {triple triple' : Bool} {t t' : List Char}
    (hs : s = quotes q triple ++ t) (hs' : s = quotes q' triple' ++ t')
    (hfirst : triple = false → ¬ quotes q true <+: s)
    (hfirst' : triple' = false → ¬ quotes q' true <+: s) : q = q' ∧ triple = triple' ∧ t = t' := by
  have hq : q = q' := by
    obtain ⟨u, hu⟩ := exists_of_quotes hs
    obtain ⟨u', hu'⟩ := exists_of_quotes hs'
    exact (List.cons.inj (hu.symm.trans hu')).1
  subst hq
  have htriple : triple = triple' := by
    cases triple with
    | true =>
      cases triple' with
      | true => rfl
      | false => exact absurd ⟨t, hs.symm⟩ (hfirst' rfl)
    | false =>
      cases triple' with
      | true => exact absurd ⟨t', hs'.symm⟩ (hfirst rfl)
      | false => rfl
  subst htriple
  exact ⟨rfl, rfl, List.append_cancel_left (hs.symm.trans hs')⟩

theorem Front.unique (h : Front s r) (h' : Front s r') : r = r' := by
  -- a line comment, a block comment and a literal begin with different characters
  have hline : ∀ {o t : List Char} {c : Char}, o ∈ lineOpenings → s = o ++ t →
      (c = '/' ∨ isQuote c = true) → ∀ u, s ≠ c :: u := by
    rintro o t c ho rfl hc u heq
    obtain ⟨d, more, rfl, hquote, hslash⟩ := lineOpening_cases ho
    obtain rfl := (List.cons.inj heq).1
    exact hc.elim hslash (by simp [hquote])
  have hblock : ∀ {t : List Char} {q : Char}, s = ['/', '*'] ++ t → isQuote q = true →
      ∀ u, s ≠ q :: u := by
    rintro t q rfl hq u heq
    obtain rfl := (List.cons.inj heq).1
    exact absurd hq (by decide)
  cases h with
  | line ho hs =>
    cases h' with
    | line ho' hs' =>
      obtain ⟨rfl, rfl⟩ := lineOpening_inj ho ho' (hs.symm.trans hs')
      rfl
    | block hs' => exact absurd hs' (hline ho hs (Or.inl rfl) _)
    | literal hq hs' =>
      obtain ⟨u, hu⟩ := exists_of_quotes hs'
      exact absurd hu (hline ho hs (Or.inr hq) u)
    | other hc => exact absurd (Or.inl ⟨_, ho, _, hs.symm⟩) hc
  | block hs h =>
    cases h' with
    | line ho' hs' => exact absurd hs (hline ho' hs' (Or.inl rfl) _)
    | block hs' h' =>
      obtain rfl := List.append_cancel_left (hs.symm.trans hs')
      obtain ⟨rfl, rfl⟩ := h.unique h'
      rfl
    | literal hq hs' =>
      obtain ⟨u, hu⟩ := exists_of_quotes hs'
      exact absurd hu (hblock hs hq u)
    | other hc => exact absurd (Or.inr (Or.inl ⟨_, hs.symm⟩)) hc
  | literal hq hs hfirst h =>
    obtain ⟨u, hu⟩ := exists_of_quotes hs
    cases h' with
    | line ho' hs' => exact absurd hu (hline ho' hs' (Or.inr hq) u)
    | block hs' => exact absurd hu (hblock hs' hq u)
    | literal hq' hs' hfirst' h' =>
      obtain ⟨rfl, rfl, rfl⟩ := quotes_inj hs hs' hfirst hfirst'
      rw [h.unique hq h']
    | other hc => exact absurd (Or.inr (Or.inr ⟨_, hq, u, hu.symm⟩)) hc
  | other hc =>
    cases h' with
    | line ho' hs' => exact absurd (Or.inl ⟨_, ho', _, hs'.symm⟩) hc
    | block hs' => exact absurd (Or.inr (Or.inl ⟨_, hs'.symm⟩)) hc
    | literal hq hs' =>
      obtain ⟨u, hu⟩ := exists_of_quotes hs'
      exact absurd (Or.inr (Or.inr ⟨_, hq, u, hu.symm⟩)) hc
    | other => rfl

theorem exists_front (c : Char) (s : List Char) : ∃ r, Front (c :: s) r := by
  by_cases hopens : Opens (c :: s)
  · rcases hopens with ⟨opening, ho, t, ht⟩ | ⟨t, ht⟩ | ⟨q, hq, t, ht⟩
    · exact ⟨_, .line ho ht.symm⟩
    · obtain ⟨body, rest, h⟩ := exists_blockTail t
      exact ⟨_, .block ht.symm h⟩
    · by_cases htriple : quotes q true <+: c :: s
      · obtain ⟨u, hu⟩ := htriple
        obtain ⟨r, h⟩ := exists_literalTail q true u
        exact ⟨_, .literal hq hu.symm nofun h⟩
      · obtain ⟨r, h⟩ := exists_literalTail q false t
        exact ⟨_, .literal hq ht.symm (fun _ => htriple) h⟩
  · exact ⟨_, .other hopens⟩

end Front

/-- Nothing stands at the front of an empty text. -/
theorem not_front_nil (r : Option (Piece × List Char)) : ¬ Front [] r := by
  intro h
  generalize hs : ([] : List Char) = s at h
  cases h with
  | line ho hs' =>
    obtain ⟨c, more, rfl, -⟩ := lineOpening_cases ho
    cases hs.trans hs'
  | block hs' => cases hs.trans hs'
  | literal _ hs' =>
    obtain ⟨u, hu⟩ := exists_of_quotes hs'
    cases hs.trans hu
  | other => cases hs

/-- The pieces of a text, one after another, are the text. -/
theorem Reading.text_eq {s : List Char} {r : Option (List Piece)} (h : Reading s r) :
    ∀ pieces, r = some pieces → s = pieces.flatMap Piece.text := by
  induction h with
  | nil => rintro _ ⟨⟩; rfl
  | piece h _ ih =>
    intro pieces hp
    obtain ⟨pieces', rfl, rfl⟩ := Option.map_eq_some_iff.1 hp
    rw [h.text_eq, ih pieces' rfl, List.flatMap_cons]
  | unclosed => exact nofun

theorem Reading.unique {s : List Char} {r r' : Option (List Piece)} (h : Reading s r)
    (h' : Reading s r') : r = r' := by
  induction h generalizing r' with
  | nil =>
    cases h' with
    | nil => rfl
    | piece h => exact absurd h (not_front_nil _)
    | unclosed h => exact absurd h (not_front_nil _)
  | piece h _ ih =>
    cases h' with
    | nil => exact absurd h (not_front_nil _)
    | piece h₁ hr =>
      cases h.unique h₁
      rw [ih hr]
    | unclosed h₁ => cases h.unique h₁
  | unclosed h =>
    cases h' with
    | nil => exact absurd h (not_front_nil _)
    | piece h₁ => cases h.unique h₁
    | unclosed => rfl

theorem exists_reading (s : List Char) : ∃ r, Reading s r := by
  -- what is left behind a piece is shorter
  induction hn : s.length using Nat.strongRecOn generalizing s with
  | ind n ih =>
    cases s with
    | nil => exact ⟨_, .nil⟩
    | cons c s =>
      obtain ⟨_ | ⟨p, rest⟩, h⟩ := exists_front c s
      · exact ⟨none, .unclosed h⟩
      · have hshorter : rest.length < n := by
          have hlen := congrArg List.length h.text_eq
          rw [List.length_append] at hlen
          have hpos := List.length_pos_iff.2 h.text_ne_nil
          omega
        obtain ⟨r, hr⟩ := ih rest.length hshorter rest rfl
        exact ⟨_, .piece h hr⟩

/-- **Every text has exactly one reading.** -/
theorem existsUnique_reading (s : List Char) :
    ∃ r, Reading s r ∧ ∀ r', Reading s r' → r' = r := by
  obtain ⟨r, h⟩ := exists_reading s
  exact ⟨r, h, fun r' h' => h'.unique h⟩

end DeferredTx.Statement
