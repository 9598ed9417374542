import DeferredTx.Proofs.SavepointName
import DeferredTx.Sql.Token

/-!
# Words in texts for the store

* `IsWord`: an identifier of ASCII, such as a keyword or the name of a savepoint.
* `tokens_word`: a word is one token, together with the blanks in front of it.
* `tokens_words`: **the tokens of words** with one blank between them.
-/

namespace DeferredTx.Sql

open Savepoint (isNameChar)

/-- An identifier of ASCII letters, digits and underscores, no digit in front. -/
def IsWord (w : List Char) : Prop :=
  ∃ c rest, w = c :: rest ∧ isNameChar c = true ∧ c.isDigit = false ∧ rest.all isNameChar = true

theorem isWord_of_checkName {name : String} (h : Savepoint.checkName name = .ok ()) :
    IsWord name.toList := by
  obtain ⟨c, rest, hname, hc, hd, hrest, -⟩ := (Savepoint.checkName_eq_ok_iff name).1 h
  exact ⟨c, rest, hname, hc, hd, hrest⟩

instance (w : List Char) : Decidable (IsWord w) :=
  match w with
  | [] => isFalse nofun
  | c :: rest =>
    decidable_of_iff (isNameChar c = true ∧ c.isDigit = false ∧ rest.all isNameChar = true)
      ⟨fun h => ⟨c, rest, rfl, h⟩, by rintro ⟨_, _, ⟨⟩, h⟩; exact h⟩

theorem ne_of_isNameChar {c d : Char} (hc : isNameChar c = true) (hd : isNameChar d = false) :
    c ≠ d := by
  rintro rfl
  exact absurd (hc.symm.trans hd) nofun

theorem continuesName_of_isNameChar {c : Char} (h : isNameChar c = true) :
    Dialect.store.continuesName c = true := by
  simp only [isNameChar, Bool.or_eq_true] at h
  simp only [Dialect.store, Bool.or_eq_true]
  rcases h with h | h
  · exact Or.inl (Or.inl (Or.inl h))
  · exact Or.inl (Or.inl (Or.inr h))

theorem startsName_of_isNameChar {c : Char} (h : isNameChar c = true) (hd : c.isDigit = false) :
    Dialect.store.startsName c = true := by
  simp only [isNameChar, Char.isAlphanum, Bool.or_eq_true, hd, Bool.false_eq_true, or_false] at h
  simp only [Dialect.store, Dialect.isLetter, Bool.or_eq_true]
  exact Or.inl h

theorem isBlank_of_isNameChar {c : Char} (h : isNameChar c = true) :
    Dialect.store.isBlank c = false := by
  have hne : ∀ d, isNameChar d = false → c ≠ d := fun d => ne_of_isNameChar h
  simp [Dialect.store, Text.isAsciiBlank, hne ' ' (by decide), hne '\t' (by decide),
    hne '\n' (by decide), hne '\x0c' (by decide), hne '\r' (by decide)]

/-- Blanks in front of a text make its gap longer. -/
theorem gap?_append_blanks {d : Dialect} {blanks : List Char} (h : blanks.all d.isBlank = true)
    (r : List Char) :
    gap? d .between (blanks ++ r) = (gap? d .between r).map (· + blanks.length) := by
  induction blanks with
  | nil => simp
  | cons b blanks ih =>
    obtain ⟨hb, hblanks⟩ := Bool.and_eq_true_iff.1 h
    rw [List.cons_append, gap?, if_pos hb, ih hblanks, Option.map_map]
    rfl

/-- Behind blanks, what begins with the character of a name begins a token. -/
theorem gap?_blanks {c : Char} (hc : isNameChar c = true) (r : List Char) (gap : List Char)
    (h : gap.all Dialect.store.isBlank = true) :
    gap? .store .between (gap ++ c :: r) = some gap.length := by
  have hdash : c ≠ '-' := ne_of_isNameChar hc (by decide)
  have hslash : c ≠ '/' := ne_of_isNameChar hc (by decide)
  have hend : gap? .store .between (c :: r) = some 0 := by
    simp only [gap?, isBlank_of_isNameChar hc]
    simp [beginsLineComment, beginsBlockComment, Dialect.store, hdash, hslash]
  rw [gap?_append_blanks h, hend, Option.map_some, Nat.zero_add]

theorem takeWhile_word {r rest : List Char} (hr : r.all isNameChar = true)
    (hrest : ∀ d ∈ rest.head?, d = ' ') :
    (r ++ rest).takeWhile Dialect.store.continuesName = r := by
  have hall : ∀ d ∈ r, Dialect.store.continuesName d = true :=
    fun d hd => continuesName_of_isNameChar (List.all_eq_true.1 hr d hd)
  rw [List.takeWhile_append_of_pos hall]
  cases rest with
  | nil => simp
  | cons d rest =>
    obtain rfl := hrest d rfl
    rw [List.takeWhile_cons_of_neg (by decide), List.append_nil]

theorem lexeme_word {c : Char} {r rest : List Char} (hc : isNameChar c = true)
    (hd : c.isDigit = false) (hr : r.all isNameChar = true)
    (hrest : ∀ d ∈ rest.head?, d = ' ') :
    lexeme .store c (r ++ rest) = (.word (String.ofList (c :: r)), r.length + 1) := by
  have hne : ∀ d, isNameChar d = false → c ≠ d := fun d => ne_of_isNameChar hc
  have hquote : ((r ++ rest).head? == some '\'') = false := by
    rw [beq_eq_false_iff_ne]
    cases r with
    | nil => exact fun h => absurd (hrest _ h) (by decide)
    | cons d r =>
      simp only [List.all_cons, Bool.and_eq_true] at hr
      exact fun h => ne_of_isNameChar hr.1 (by decide) (Option.some.inj h)
  have htext : Dialect.store.textQuotes.contains c = false := by
    simp [Dialect.store, hne '\'' (by decide)]
  have hnames : Dialect.store.nameQuotes.find? (fun q => q.1 == c) = none := by
    simp [Dialect.store, (hne '"' (by decide)).symm, (hne '\x60' (by decide)).symm,
      (hne '[' (by decide)).symm]
  unfold lexeme
  simp only [htext, hnames, hd, hquote, startsName_of_isNameChar hc hd, takeWhile_word hr hrest]
  simp [hne '.' (by decide)]

/-- The first token of a text, by the gap and the lexeme at its start. -/
theorem tokens_eq_cons {d : Dialect} {cs rest : List Char} {n taken : Nat} {c : Char} {l : Lexeme}
    (hgap : gap? d .between cs = some n) (hdrop : cs.drop n = c :: rest)
    (hlexeme : lexeme d c rest = (l, taken)) (hl : l ≠ .illegal) :
    tokens d cs =
      ⟨l, cs.take n, c :: rest.take (taken - 1)⟩ :: tokens d (rest.drop (taken - 1)) := by
  rw [tokens]
  split
  · rename_i hnone
    rw [hgap] at hnone
    cases hnone
  · rename_i m hsome
    obtain rfl := Option.some.inj (hgap.symm.trans hsome)
    split
    · rename_i hnil
      rw [hdrop] at hnil
      cases hnil
    · rename_i c' rest' hcons
      obtain ⟨rfl, rfl⟩ := List.cons.inj (hdrop.symm.trans hcons)
      simp only [hlexeme, if_neg hl]

/-- A word is one token, together with the blanks in front of it. -/
theorem tokens_word {w gap rest : List Char} (hw : IsWord w)
    (hgap : gap.all Dialect.store.isBlank = true) (hrest : ∀ d ∈ rest.head?, d = ' ') :
    tokens .store (gap ++ w ++ rest) =
      ⟨.word (String.ofList w), gap, w⟩ :: tokens .store rest := by
  obtain ⟨c, r, rfl, hc, hd, hr⟩ := hw
  rw [List.append_assoc, List.cons_append]
  rw [tokens_eq_cons (gap?_blanks hc _ gap hgap) List.drop_left (lexeme_word hc hd hr hrest) nofun]
  simp

/-- Words with one blank between them. -/
def spaced : List (List Char) → List Char
  | [] => []
  | w :: ws => ' ' :: w ++ spaced ws

theorem head?_spaced (ws : List (List Char)) : ∀ d ∈ (spaced ws).head?, d = ' ' := by
  cases ws with
  | nil => nofun
  | cons v ws => exact fun d hd => (Option.some.inj hd).symm

theorem tokens_spaced : ∀ ws : List (List Char), (∀ w ∈ ws, IsWord w) →
    tokens .store (spaced ws) =
      ws.map (fun w => ⟨.word (String.ofList w), [' '], w⟩) ++ [⟨.stop, [], []⟩]
  | [], _ => by decide +kernel
  | w :: ws, h => by
    have ih := tokens_spaced ws fun v hv => h v (List.mem_cons_of_mem _ hv)
    have hword : IsWord w := h w List.mem_cons_self
    have hblank : [' '].all Dialect.store.isBlank = true := by decide
    have htokens := tokens_word hword hblank (head?_spaced ws)
    simpa [spaced, ih] using htokens

/-- **The tokens of words** with one blank between them: one for each, and the end. -/
theorem tokens_words {w : List Char} {ws : List (List Char)} (hw : IsWord w)
    (hws : ∀ v ∈ ws, IsWord v) :
    tokens .store (w ++ spaced ws) = ⟨.word (String.ofList w), [], w⟩ ::
      ws.map (fun v => ⟨.word (String.ofList v), [' '], v⟩) ++ [⟨.stop, [], []⟩] := by
  have hblank : [].all Dialect.store.isBlank = true := rfl
  have htokens := tokens_word hw hblank (head?_spaced ws)
  rw [tokens_spaced ws hws] at htokens
  simpa using htokens

end DeferredTx.Sql
