import DeferredTx.Proofs.Sql.Layout
import DeferredTx.Proofs.Sql.LineEnd
import DeferredTx.Proofs.Sql.Word

/-!
# Texts behind each other

A text that ends with a line feed is cut into tokens as it is, whatever follows it. Only the gap at its
end goes on.

* `GapMode.next?`: a gap character by character.
* `lexemes_tokens`: the lexemes of a text are those of what follows its gap.
* `gap_append`: a gap in such a text ends there, or goes on behind it.
* `tokens_append`: **the tokens of a text that ends with a line feed stay what they are** if something
  follows.
-/

namespace DeferredTx.Sql

open Dialect (sqlite)

/-! ### Gaps character by character -/

/-- What a gap leaves open behind a character; nothing if the gap ends in front of it. -/
def GapMode.next? (d : Dialect) (g : GapMode) (c : Char) (r : List Char) : Option GapMode :=
  match g with
  | .between =>
    if d.isBlank c then some .between
    else if beginsLineComment d c r then some .lineComment
    else if beginsBlockComment d c r then some (.opening 1)
    else none
  | .lineComment =>
    some (if c == '\n' || d.returnEndsComment && c == '\r' then .between else .lineComment)
  | .opening depth => some (.blockComment depth)
  | .blockComment depth =>
    some (if c = '*' ∧ r.head? = some '/' then .closing depth
      else if d.nestedComments ∧ c = '/' ∧ r.head? = some '*' then .opening (depth + 1)
      else .blockComment depth)
  | .closing depth => some (if depth ≤ 1 then .between else .blockComment (depth - 1))

variable {d : Dialect} {g : GapMode} {c : Char} {a b r : List Char} {n : Nat}

theorem gap?_cons : gap? d g (c :: r) =
    match g.next? d c r with
    | none => some 0
    | some g' => (gap? d g' r).map (· + 1) := by
  cases g with
  | between =>
    simp only [gap?, GapMode.next?]
    split
    · rfl
    split
    · rfl
    split <;> rfl
  | _ => rfl

theorem gap?_cons_eq_some : gap? d g (c :: r) = some n ↔
    (g.next? d c r = none ∧ n = 0) ∨
      ∃ g' m, g.next? d c r = some g' ∧ gap? d g' r = some m ∧ n = m + 1 := by
  rw [gap?_cons]
  cases g.next? d c r with
  | none => simp [eq_comm]
  | some g' =>
    rw [Option.map_eq_some_iff]
    simp [eq_comm]

theorem next?_eq_none (h : g.next? d c r = none) : g = .between ∧ d.isBlank c = false := by
  cases g with
  | between =>
    refine ⟨rfl, Bool.eq_false_iff.2 fun hblank => ?_⟩
    simp [GapMode.next?, hblank] at h
  | _ => cases h

/-- A gap ends in front of something that is not blank. -/
theorem gap_stop {cs : List Char} (h : gap? d g cs = some n) (hdrop : cs.drop n = c :: r) :
    d.isBlank c = false := by
  induction cs generalizing g n with
  | nil => simp at hdrop
  | cons x cs ih =>
    rcases gap?_cons_eq_some.1 h with ⟨hnext, rfl⟩ | ⟨g', m, hnext, hm, rfl⟩
    · obtain ⟨rfl, rfl⟩ := List.cons.inj hdrop
      exact (next?_eq_none hnext).2
    · exact ih hm hdrop

theorem gap?_le {cs : List Char} (h : gap? d g cs = some n) : n ≤ cs.length := by
  induction cs generalizing g n with
  | nil =>
    cases g with
    | blockComment depth =>
      simp only [gap?] at h
      split at h
      · exact Nat.le_of_eq (Option.some.inj h).symm
      · cases h
    | _ => exact Nat.le_of_eq (Option.some.inj h).symm
  | cons c cs ih =>
    rcases gap?_cons_eq_some.1 h with ⟨-, rfl⟩ | ⟨g', m, -, hm, rfl⟩
    · exact Nat.zero_le _
    · exact Nat.succ_le_succ (ih hm)

/-- What follows the gap at the start of a text. -/
def behindGap? (d : Dialect) (cs : List Char) : Option (List Char) :=
  (gap? d .between cs).map fun n => cs.drop n

/-- The lexemes of a text are those of what follows its gap. -/
theorem lexemes_tokens (d : Dialect) (cs : List Char) :
    (tokens d cs).map Token.lexeme =
      match behindGap? d cs with
      | none => [.illegal]
      | some [] => [.stop]
      | some (c :: rest) =>
        if (lexeme d c rest).1 = .illegal then [.illegal]
        else
          (lexeme d c rest).1 :: (tokens d (rest.drop ((lexeme d c rest).2 - 1))).map Token.lexeme := by
  fun_cases tokens d cs with
  | case1 hgap => simp [behindGap?, hgap]
  | case2 n hgap hend => simp [behindGap?, hgap, hend]
  | case3 n hgap c rest hcut => simp [behindGap?, *]
  | case4 n hgap c rest hcut l taken hlexeme hl => simp [behindGap?, hgap, hcut, hlexeme, hl]

theorem sameLexemes_of_behindGap (h : behindGap? d a = behindGap? d b) :
    SameLexemes (tokens d a) (tokens d b) := by
  unfold SameLexemes
  rw [lexemes_tokens, lexemes_tokens, h]

/-- Only the next character matters for a gap, and not which end of the line it is. -/
theorem next?_congr (h : ∀ x, isLineEnd x = false → (a.head? = some x ↔ b.head? = some x)) :
    g.next? sqlite c a = g.next? sqlite c b := by
  have hdash := h '-' rfl
  have hstar := h '*' rfl
  have hslash := h '/' rfl
  cases g with
  | between => simp [GapMode.next?, beginsLineComment, beginsBlockComment, sqlite, hdash, hstar]
  | blockComment depth => simp [GapMode.next?, sqlite, hslash]
  | _ => rfl

/-- A line feed is passed whatever follows it. -/
theorem next?_feed (a b : List Char) : g.next? sqlite '\n' a = g.next? sqlite '\n' b := by
  cases g with
  | between =>
    have hblank : sqlite.isBlank '\n' = true := by decide
    simp [GapMode.next?, hblank]
  | blockComment depth => simp [GapMode.next?]
  | _ => rfl

/-- At the end of a text that ends with a line feed, no comment is open that may stay open. -/
theorem between_of_feed {g' : GapMode} (h : g.next? sqlite '\n' r = some g')
    (hend : gap? sqlite g' [] = some n) : g' = .between ∧ n = 0 := by
  have hblank : sqlite.isBlank '\n' = true := by decide
  have hopen : sqlite.openComments = false := rfl
  cases g with
  | between =>
    obtain rfl : .between = g' := by simpa [GapMode.next?, hblank] using h
    exact ⟨rfl, (Option.some.inj hend).symm⟩
  | lineComment =>
    obtain rfl : .between = g' := by simpa [GapMode.next?] using h
    exact ⟨rfl, (Option.some.inj hend).symm⟩
  | opening depth =>
    obtain rfl : .blockComment depth = g' := by simpa [GapMode.next?] using h
    simp [gap?, hopen] at hend
  | blockComment depth =>
    obtain rfl : .blockComment depth = g' := by simpa [GapMode.next?] using h
    simp [gap?, hopen] at hend
  | closing depth =>
    obtain rfl := Option.some.inj h
    split at hend
    · rename_i hdepth
      exact ⟨if_pos hdepth, (Option.some.inj hend).symm⟩
    · simp [gap?, hopen] at hend

section Append

variable {front more : List Char}

/-- A gap in a text that ends with a line feed either ends there, or goes on behind it. -/
theorem gap_append (hlast : front.getLast? = some '\n') (h : gap? sqlite g front = some n)
    (more : List Char) :
    gap? sqlite g (front ++ more) =
      if n = front.length then (gap? sqlite .between more).map (· + n) else some n := by
  induction front generalizing g n with
  | nil => cases hlast
  | cons c r ih =>
    cases r with
    | nil =>
      -- the line feed at the end, which no comment is open behind
      obtain rfl : c = '\n' := by simpa using hlast
      rcases gap?_cons_eq_some.1 h with ⟨hnext, -⟩ | ⟨g', m, hnext, hm, rfl⟩
      · exact absurd (next?_eq_none hnext).2 (by decide)
      · obtain ⟨rfl, rfl⟩ := between_of_feed hnext hm
        rw [List.cons_append, List.nil_append, gap?_cons, next?_feed more [], hnext]
        rfl
    | cons x r =>
      have hlast' : (x :: r).getLast? = some '\n' := by simpa using hlast
      have hsame : g.next? sqlite c (x :: r ++ more) = g.next? sqlite c (x :: r) :=
        next?_congr fun y _ => Iff.rfl
      rw [List.cons_append, gap?_cons, hsame]
      rcases gap?_cons_eq_some.1 h with ⟨hnext, rfl⟩ | ⟨g', m, hnext, hm, rfl⟩
      · rw [hnext]
        rfl
      · rw [hnext]
        show (gap? sqlite g' (x :: r ++ more)).map (· + 1) = _
        rw [ih hlast' hm]
        by_cases hall : m = (x :: r).length
        · have hall' : m + 1 = (c :: x :: r).length := congrArg (· + 1) hall
          rw [if_pos hall, if_pos hall', Option.map_map]
          rfl
        · have hall' : m + 1 ≠ (c :: x :: r).length := fun heq => hall (Nat.succ.inj heq)
          rw [if_neg hall, if_neg hall']
          rfl

/-- A token does not reach the line feed at the end of a text. -/
theorem exists_of_token_feed {rest : List Char} {l : Lexeme} {taken : Nat} (hc : isLineEnd c = false)
    (hlexeme : lexeme sqlite c rest = (l, taken)) (hl : l ≠ .illegal)
    (hlast : (c :: rest).getLast? = some '\n') :
    ∃ u, rest = u ++ ['\n'] ∧ taken ≤ u.length + 1 := by
  obtain ⟨hle, hends⟩ := lexeme_endsInLine hc hlexeme hl
  rcases List.eq_nil_or_concat rest with rfl | ⟨u, e, rfl⟩
  · obtain rfl : c = '\n' := by simpa using hlast
    cases hc
  · rw [List.concat_eq_append, ← List.cons_append, List.getLast?_concat] at hlast
    obtain rfl := Option.some.inj hlast
    refine ⟨u, List.concat_eq_append, Nat.not_lt.1 fun hlt => ?_⟩
    have hall : c :: (u.concat '\n').take (taken - 1) = (c :: u) ++ ['\n'] := by
      rw [List.take_of_length_le (by rw [List.length_concat]; omega), List.concat_eq_append]
      rfl
    rw [hall] at hends
    rcases hends with hfree | ⟨e, he, hsolid⟩
    · cases hfree '\n' (by simp)
    · rw [List.getLast?_concat] at he
      obtain rfl := Option.some.inj he
      exact absurd hsolid (by decide)

/-- **The tokens of a text that ends with a line feed stay what they are** if something follows. -/
theorem tokens_append (hlast : front.getLast? = some '\n')
    (hlegal : ∀ t ∈ tokens sqlite front, t.lexeme ≠ .illegal) (more : List Char) :
    ∃ ts gap, tokens sqlite front = ts ++ [⟨.stop, gap, []⟩] ∧
      SameLexemes (tokens sqlite (front ++ more)) (ts ++ tokens sqlite more) := by
  -- token by token; only the gap behind the last one reaches the end
  fun_induction tokens sqlite front with
  | case1 cs hgap => exact absurd rfl (hlegal _ List.mem_cons_self)
  | case2 cs n hgap hend =>
    refine ⟨[], cs, rfl, sameLexemes_of_behindGap ?_⟩
    obtain rfl : n = cs.length := Nat.le_antisymm (gap?_le hgap) (List.drop_eq_nil_iff.1 hend)
    unfold behindGap?
    rw [gap_append hlast hgap, if_pos rfl, Option.map_map]
    refine congrArg (Option.map · _) (funext fun m => ?_)
    simp [List.drop_append]
  | case3 cs n hgap c rest hcut => exact absurd rfl (hlegal _ List.mem_cons_self)
  | case4 cs n hgap c rest hcut l taken hlexeme hl ih =>
    have hblank := gap_stop hgap hcut
    have hc := isLineEnd_of_solid hblank
    have hwithin : ¬cs.length ≤ n := by
      intro hle
      rw [List.drop_eq_nil_of_le hle] at hcut
      cases hcut
    have hlast' : (c :: rest).getLast? = some '\n' := by
      rw [← hcut, List.getLast?_drop, if_neg hwithin, hlast]
    obtain ⟨u, rfl, htaken⟩ := exists_of_token_feed hc hlexeme hl hlast'
    have hdrop : ∀ a, (u ++ a).drop (taken - 1) = u.drop (taken - 1) ++ a :=
      fun a => List.drop_append_of_le_length (by omega)
    have hlast'' : ((u ++ ['\n']).drop (taken - 1)).getLast? = some '\n' := by
      rw [hdrop, List.getLast?_concat]
    obtain ⟨ts, gap, hts, hsame⟩ := ih hlast'' fun t ht => hlegal t (List.mem_cons_of_mem _ ht)
    refine ⟨_ :: ts, gap, congrArg _ hts, ?_⟩
    have hlexeme' : lexeme sqlite c (u ++ '\n' :: more) = (l, taken) :=
      lexeme_extend (atLineEnd_feed more) (lexeme_restrict (atLineEnd_feed []) hlexeme hl htaken) hl
    have hbehind : behindGap? sqlite (cs ++ more) = some (c :: (u ++ '\n' :: more)) := by
      have hne : n ≠ cs.length := fun heq => hwithin (Nat.le_of_eq heq.symm)
      unfold behindGap?
      rw [gap_append hlast hgap, if_neg hne, Option.map_some,
        List.drop_append_of_le_length (gap?_le hgap), hcut, List.cons_append, List.append_assoc]
      rfl
    unfold SameLexemes
    rw [lexemes_tokens, hbehind]
    simp only [hlexeme', if_neg hl, List.cons_append, List.map_cons, hdrop]
    rw [hdrop, List.append_assoc] at hsame
    exact congrArg (l :: ·) hsame

end Append

end DeferredTx.Sql
