import DeferredTx.Proofs.Sql.Joined

/-!
# Texts whose line ends are written differently

The end of a line may be a carriage return with a line feed, or a line feed alone, and behind the last
token there may be blank lines. In a gap none of this matters.

* `Relaid`: a text without some of the carriage returns in front of line feeds, and with other blanks
  behind its last line.
* `Relaid.gap`: gaps in such texts.
* `sameLexemes_of_relaid`: **such a text has the same lexemes**, if no token has lost a carriage return.
-/

namespace DeferredTx.Sql

open Dialect (sqlite)
open Text (allBlank isBlank)

/-- The second text is the first one without some carriage returns in front of line feeds, if
`returns` may be lost, and with other blanks behind the end of its last line. -/
inductive Relaid (returns : Prop) : List Char → List Char → Prop where
  | blank {a b : List Char} : AtLineEnd a → AtLineEnd b → allBlank a = true → allBlank b = true →
    Relaid returns a b
  | same {a b : List Char} (c : Char) : Relaid returns a b → Relaid returns (c :: a) (c :: b)
  | feed {a b : List Char} : returns → Relaid returns a b →
    Relaid returns ('\r' :: '\n' :: a) ('\n' :: b)

variable {returns : Prop} {a b : List Char} {g : GapMode} {n : Nat}

/-- The same text may stand in front of both. -/
theorem Relaid.append_left (h : Relaid returns a b) (u : List Char) :
    Relaid returns (u ++ a) (u ++ b) := by
  induction u with
  | nil => exact h
  | cons c u ih => exact .same c ih

/-- Both texts go on in the same way, up to how their lines end. -/
theorem Relaid.head_iff (h : Relaid returns a b) {x : Char} (hx : isLineEnd x = false) :
    a.head? = some x ↔ b.head? = some x := by
  cases h with
  | blank ha hb => exact iff_of_false (ha.head_ne hx) (hb.head_ne hx)
  | same c => exact Iff.rfl
  | feed =>
    refine iff_of_false (fun heq => ?_) (fun heq => ?_) <;>
      · obtain rfl := Option.some.inj heq
        cases hx

/-- What a gap expects next. -/
def GapMode.Expects : GapMode → List Char → Prop
  | .opening _, cs => cs.head? = some '*'
  | .closing _, cs => cs.head? = some '/'
  | _, _ => True

theorem expects_next {c : Char} {r : List Char} {g' : GapMode} (h : g.next? sqlite c r = some g') :
    g'.Expects r := by
  cases g with
  | between =>
    simp only [GapMode.next?] at h
    split at h
    · obtain rfl := Option.some.inj h
      trivial
    split at h
    · obtain rfl := Option.some.inj h
      trivial
    split at h
    · rename_i hopens
      obtain rfl := Option.some.inj h
      simp only [beginsBlockComment, Bool.and_eq_true, beq_iff_eq] at hopens
      exact hopens.1.2
    · cases h
  | lineComment =>
    obtain rfl := Option.some.inj h
    split <;> trivial
  | opening depth =>
    obtain rfl := Option.some.inj h
    trivial
  | blockComment depth =>
    obtain rfl := Option.some.inj h
    split
    · rename_i hcloses
      exact hcloses.2
    · rw [if_neg (by simp [sqlite])]
      trivial
  | closing depth =>
    obtain rfl := Option.some.inj h
    split <;> trivial

/-- A carriage return in a gap changes nothing. -/
theorem next?_return {r : List Char} (hg : g.Expects ('\r' :: r)) : g.next? sqlite '\r' r = some g := by
  cases g with
  | between =>
    have hblank : sqlite.isBlank '\r' = true := by decide
    simp [GapMode.next?, hblank]
  | lineComment => rfl
  | opening depth => cases hg
  | blockComment depth => simp [GapMode.next?]
  | closing depth => cases hg

/-- Blanks are passed, outside of block comments. -/
theorem gap?_blanks_sqlite {cs : List Char} (hblank : allBlank cs = true)
    (hg : g = .between ∨ g = .lineComment) : gap? sqlite g cs = some cs.length := by
  induction cs generalizing g with
  | nil => rcases hg with rfl | rfl <;> rfl
  | cons c cs ih =>
    obtain ⟨hc, hcs⟩ := Bool.and_eq_true_iff.1 hblank
    obtain ⟨g', hnext, hg'⟩ : ∃ g', g.next? sqlite c cs = some g' ∧
        (g' = .between ∨ g' = .lineComment) := by
      rcases hg with rfl | rfl
      · exact ⟨.between, if_pos hc, Or.inl rfl⟩
      · refine ⟨_, rfl, ?_⟩
        split
        · exact Or.inl rfl
        · exact Or.inr rfl
    exact gap?_cons_eq_some.2 (Or.inr ⟨g', cs.length, hnext, ih hcs hg', rfl⟩)

/-- A block comment is not closed by blanks. -/
theorem gap?_blanks_open {cs : List Char} (hblank : allBlank cs = true) (depth : Nat) :
    gap? sqlite (.blockComment depth) cs = none := by
  induction cs with
  | nil => rfl
  | cons c cs ih =>
    obtain ⟨hc, hcs⟩ := Bool.and_eq_true_iff.1 hblank
    have hstar : c ≠ '*' := by
      rintro rfl
      exact absurd hc (by decide)
    have hnext : (GapMode.blockComment depth).next? sqlite c cs = some (.blockComment depth) := by
      simp [GapMode.next?, hstar, sqlite]
    rw [gap?_cons, hnext]
    simp [ih hcs]

theorem not_expects_of_blank {cs : List Char} (hblank : allBlank cs = true) {x : Char}
    (hx : isBlank x = false) : cs.head? ≠ some x := by
  intro h
  have hmem := List.mem_of_mem_head? h
  rw [List.all_eq_true.1 hblank x hmem] at hx
  cases hx

/-- A gap of the one text stands for a gap of the other one. -/
theorem Relaid.gap (h : Relaid returns a b) (hg : g.Expects a) (hn : gap? sqlite g a = some n) :
    ∃ m, gap? sqlite g b = some m ∧ Relaid returns (a.drop n) (b.drop m) := by
  induction h generalizing g n with
  | @blank a b ha hb hblankA hblankB =>
    -- blanks do not close a block comment, so that none is open here
    have hends : (g = .between ∨ g = .lineComment) →
        ∃ m, gap? sqlite g b = some m ∧ Relaid returns (a.drop n) (b.drop m) := by
      intro hclosed
      obtain rfl : a.length = n := Option.some.inj ((gap?_blanks_sqlite hblankA hclosed).symm.trans hn)
      refine ⟨b.length, gap?_blanks_sqlite hblankB hclosed, ?_⟩
      rw [List.drop_length, List.drop_length]
      exact .blank nofun nofun rfl rfl
    cases g with
    | between => exact hends (Or.inl rfl)
    | lineComment => exact hends (Or.inr rfl)
    | opening depth => exact absurd hg (not_expects_of_blank hblankA (by decide))
    | blockComment depth => cases (gap?_blanks_open hblankA depth).symm.trans hn
    | closing depth => exact absurd hg (not_expects_of_blank hblankA (by decide))
  | @same a b c hab ih =>
    rcases gap?_cons_eq_some.1 hn with ⟨hnext, rfl⟩ | ⟨g', m, hnext, hm, rfl⟩
    · rw [next?_congr fun x => hab.head_iff] at hnext
      exact ⟨0, gap?_cons_eq_some.2 (Or.inl ⟨hnext, rfl⟩), .same c hab⟩
    · obtain ⟨m', hm', hrest⟩ := ih (expects_next hnext) hm
      rw [next?_congr fun x => hab.head_iff] at hnext
      exact ⟨m' + 1, gap?_cons_eq_some.2 (Or.inr ⟨g', m', hnext, hm', rfl⟩), hrest⟩
  | @feed a b hreturns hab ih =>
    -- the carriage return changes nothing, and the line feed does the same in both texts
    rcases gap?_cons_eq_some.1 hn with ⟨hnext, -⟩ | ⟨g₁, m, hnext, hm, rfl⟩
    · exact absurd (next?_eq_none hnext).2 (by decide)
    obtain rfl := Option.some.inj ((next?_return hg).symm.trans hnext)
    rcases gap?_cons_eq_some.1 hm with ⟨hnext', -⟩ | ⟨g', m', hnext', hm', rfl⟩
    · exact absurd (next?_eq_none hnext').2 (by decide)
    obtain ⟨k, hk, hrest⟩ := ih (expects_next hnext') hm'
    rw [next?_feed a b] at hnext'
    exact ⟨k + 1, gap?_cons_eq_some.2 (Or.inr ⟨g', k, hnext', hk, rfl⟩), hrest⟩

/-- Whether a text has a carriage return in front of a line feed. -/
def HasReturn (cs : List Char) : Prop :=
  ['\r', '\n'] <:+: cs

instance (cs : List Char) : Decidable (HasReturn cs) :=
  inferInstanceAs (Decidable (_ <:+: _))

/-- What has no carriage return to lose is there in both texts. -/
theorem Relaid.exists_append {front : List Char} (h : Relaid returns (front ++ a) b)
    (hfree : returns → ¬HasReturn front) (hends : EndsInLine front) :
    ∃ b', b = front ++ b' ∧ Relaid returns a b' := by
  induction front generalizing b with
  | nil => exact ⟨b, rfl, h⟩
  | cons c front ih =>
    have hends' : EndsInLine front := by
      rcases hends with hall | ⟨e, he, hsolid⟩
      · exact Or.inl (List.forall_mem_cons.1 hall).2
      · cases front with
        | nil => exact Or.inl nofun
        | cons x front => exact Or.inr ⟨e, by simpa using he, hsolid⟩
    have hfree' : returns → ¬HasReturn front := fun hr hin =>
      hfree hr (hin.trans (List.suffix_cons c front).isInfix)
    rw [List.cons_append] at h
    generalize heq : c :: (front ++ a) = cs at h
    cases h with
    | blank ha hb hblankA hblankB =>
      subst heq
      rcases hends with hall | ⟨e, he, hsolid⟩
      · have hend := ha c rfl
        rw [hall c List.mem_cons_self] at hend
        cases hend
      · have hmem : e ∈ c :: (front ++ a) := List.mem_append_left a (List.mem_of_getLast? he)
        rw [List.all_eq_true.1 hblankA e hmem] at hsolid
        cases hsolid
    | same x hab =>
      obtain ⟨rfl, rfl⟩ := List.cons.inj heq
      obtain ⟨b', rfl, hb'⟩ := ih hab hfree' hends'
      exact ⟨b', rfl, hb'⟩
    | feed hreturns hab =>
      obtain ⟨rfl, hrest⟩ := List.cons.inj heq
      cases front with
      | nil =>
        rcases hends with hall | ⟨e, he, hsolid⟩
        · cases hall '\r' List.mem_cons_self
        · obtain rfl := Option.some.inj he
          exact absurd hsolid (by decide)
      | cons x front =>
        obtain ⟨rfl, -⟩ := List.cons.inj hrest
        exact absurd ⟨[], front, rfl⟩ (hfree hreturns)

/-- In front of the ends of their lines both texts are the same. -/
theorem Relaid.exists_line (h : Relaid returns a b) :
    ∃ u a' b', a = u ++ a' ∧ b = u ++ b' ∧ AtLineEnd a' ∧ AtLineEnd b' := by
  induction h with
  | blank ha hb => exact ⟨[], _, _, rfl, rfl, ha, hb⟩
  | same c _ ih =>
    obtain ⟨u, a', b', rfl, rfl, ha, hb⟩ := ih
    exact ⟨c :: u, a', b', rfl, rfl, ha, hb⟩
  | feed =>
    refine ⟨[], _, _, rfl, rfl, ?_, atLineEnd_feed _⟩
    rintro _ ⟨⟩
    rfl

/-- A token is there in both texts, if it has no carriage return to lose. -/
theorem Relaid.exists_token {c : Char} {rest : List Char} {l : Lexeme} {taken : Nat}
    (h : Relaid returns (c :: rest) b) (hsolid : isBlank c = false)
    (hlexeme : lexeme sqlite c rest = (l, taken)) (hl : l ≠ .illegal)
    (hfree : returns → ¬HasReturn (c :: rest.take (taken - 1))) :
    ∃ rest', b = c :: rest' ∧ lexeme sqlite c rest' = (l, taken) ∧
      Relaid returns (rest.drop (taken - 1)) (rest'.drop (taken - 1)) := by
  obtain ⟨hle, hends⟩ := lexeme_endsInLine (isLineEnd_of_solid hsolid) hlexeme hl
  have hlength : (rest.take (taken - 1)).length = taken - 1 := by
    rw [List.length_take]
    omega
  have hwhole := List.take_append_drop (taken - 1) rest
  generalize rest.take (taken - 1) = inside at *
  generalize rest.drop (taken - 1) = after at *
  subst hwhole
  obtain ⟨after', rfl, hafter⟩ := h.exists_append hfree hends
  refine ⟨inside ++ after', rfl, ?_, ?_⟩
  · obtain ⟨u, a', b', rfl, rfl, ha', hb'⟩ := hafter.exists_line
    rw [← List.append_assoc] at hlexeme ⊢
    have hfits : taken ≤ (inside ++ u).length + 1 := by
      rw [List.length_append]
      omega
    exact lexeme_extend hb' (lexeme_restrict ha' hlexeme hl hfits) hl
  · rwa [List.drop_left' hlength]

/-- **A text whose line ends are written differently has the same lexemes**, if no token has a carriage
return to lose. -/
theorem sameLexemes_of_relaid (h : Relaid returns a b)
    (hlegal : ∀ t ∈ tokens sqlite a, t.lexeme ≠ .illegal)
    (hfree : returns → ∀ t ∈ tokens sqlite a, ¬HasReturn t.text) :
    SameLexemes (tokens sqlite a) (tokens sqlite b) := by
  fun_induction tokens sqlite a generalizing b with
  | case1 cs hgap => exact absurd rfl (hlegal _ List.mem_cons_self)
  | case2 cs n hgap hend =>
    have hexpects : GapMode.between.Expects cs := trivial
    obtain ⟨m, hm, hrest⟩ := h.gap hexpects hgap
    have hnil : b.drop m = [] := by
      cases hdrop : b.drop m with
      | nil => rfl
      | cons c r =>
        rw [hend, hdrop] at hrest
        cases hrest with
        | blank _ _ _ hblank =>
          have hc : isBlank c = false := gap_stop hm hdrop
          rw [List.all_eq_true.1 hblank c List.mem_cons_self] at hc
          cases hc
    have hbehind : behindGap? sqlite b = some [] := by
      rw [behindGap?, hm, Option.map_some, hnil]
    unfold SameLexemes
    rw [lexemes_tokens sqlite b, hbehind]
    rfl
  | case3 cs n hgap c rest hcut => exact absurd rfl (hlegal _ List.mem_cons_self)
  | case4 cs n hgap c rest hcut l taken hlexeme hl ih =>
    have hexpects : GapMode.between.Expects cs := trivial
    obtain ⟨m, hm, hrest⟩ := h.gap hexpects hgap
    rw [hcut] at hrest
    obtain ⟨rest', hdrop, hlexeme', hmore⟩ := hrest.exists_token (gap_stop hgap hcut) hlexeme hl
      fun hr => hfree hr _ List.mem_cons_self
    have hsame := ih hmore (fun t ht => hlegal t (List.mem_cons_of_mem _ ht))
      fun hr t ht => hfree hr t (List.mem_cons_of_mem _ ht)
    have hbehind : behindGap? sqlite b = some (c :: rest') := by
      rw [behindGap?, hm, Option.map_some, hdrop]
    unfold SameLexemes
    rw [lexemes_tokens sqlite b, hbehind]
    simp only [hlexeme', if_neg hl, List.map_cons]
    exact congrArg (l :: ·) hsame

end DeferredTx.Sql
