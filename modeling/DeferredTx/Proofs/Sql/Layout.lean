import DeferredTx.Sql.Script

/-!
# Scripts are read by their lexemes

How tokens are written, and what stands in the gaps between them, means nothing to the readers. Only
the text of an item of a selection is taken from there, and that is not printed.

* `Reader.Alike`: readers that cannot be told apart on tokens with the same lexemes.
* `alike_read`: every statement is read so.
* `split_of_lexemes`: **scripts with the same lexemes are split into the same statements.**
-/

namespace DeferredTx.Sql

variable {α β γ δ : Type}

/-- A token without its gap and its text. -/
def Token.bare (t : Token) : Token :=
  ⟨t.lexeme, [], []⟩

/-- Tokens with the same lexemes. -/
def SameLexemes (ts us : List Token) : Prop :=
  ts.map Token.lexeme = us.map Token.lexeme

theorem sameLexemes_bare (ts : List Token) : SameLexemes (ts.map Token.bare) ts := by
  simp [SameLexemes, Token.bare]

theorem SameLexemes.bare_eq {ts us : List Token} (h : SameLexemes ts us) :
    ts.map Token.bare = us.map Token.bare := by
  have hbare := congrArg (List.map fun l => (⟨l, [], []⟩ : Token)) h
  rwa [List.map_map, List.map_map] at hbare

theorem SameLexemes.length_eq {ts us : List Token} (h : SameLexemes ts us) : ts.length = us.length := by
  simpa using congrArg List.length h

theorem SameLexemes.exists_cons {t : Token} {ts us : List Token} (h : SameLexemes (t :: ts) us) :
    ∃ u us', us = u :: us' ∧ t.lexeme = u.lexeme ∧ SameLexemes ts us' := by
  cases us with
  | nil => cases h
  | cons u us =>
    obtain ⟨hlexeme, hrest⟩ := List.cons.inj h
    exact ⟨u, us, rfl, hlexeme, hrest⟩

section Bare

variable (t : Token) (ts : List Token)

@[simp] theorem bare_lexeme : t.bare.lexeme = t.lexeme := rfl

@[simp] theorem bare_isSymbol (text : String) : t.bare.isSymbol text = t.isSymbol text := rfl

@[simp] theorem bare_isKeyword (word : String) : t.bare.isKeyword word = t.isKeyword word := rfl

@[simp] theorem bare_binaryOp : BinaryOp.ofToken? t.bare = BinaryOp.ofToken? t := rfl

@[simp] theorem bare_operand (d : Dialect) : Expr.ofToken? d t.bare = Expr.ofToken? d t := rfl

@[simp] theorem bare_readWord :
    ColumnType.readWord [t.bare] = (ColumnType.readWord [t]).map fun p => (p.1, p.2.map Token.bare) := by
  simp only [ColumnType.readWord, Reader.token, bare_lexeme, Option.map_map]
  rfl

@[simp] theorem bare_opened (d : Dialect) :
    Expr.opened? d t.bare (ts.map Token.bare) = Expr.opened? d t ts := by
  cases ts <;> rfl

@[simp] theorem bare_head (word : String) : ((ts.map Token.bare).head?.any fun t => t.isKeyword word) =
    ts.head?.any fun t => t.isKeyword word := by
  cases ts <;> rfl

end Bare

namespace Reader

/-- What `f` sees of an answer, and the lexemes of the tokens that are left. -/
def seen (f : α → γ) (answer : Option (α × List Token)) : Option (γ × List Lexeme) :=
  answer.map fun p => (f p.1, p.2.map Token.lexeme)

theorem seen_some {f : α → γ} {p q : α × List Token} :
    seen f (some p) = seen f (some q) ↔ f p.1 = f q.1 ∧ SameLexemes p.2 q.2 := by
  simp [seen, SameLexemes]

/-- Readers that cannot be told apart by `f` on tokens with the same lexemes. -/
def Alike (f : α → γ) (r r' : Reader α) : Prop :=
  ∀ ts us, SameLexemes ts us → seen f (r ts) = seen f (r' us)

variable {f : α → γ} {g : β → δ} {r r' : Reader α}

/-- Answers that look alike: none, or two that `f` does not tell apart. -/
theorem cases_of_seen {x y : Option (α × List Token)} (h : seen f x = seen f y) :
    (x = none ∧ y = none) ∨ ∃ a b ts us, x = some (a, ts) ∧ y = some (b, us) ∧ f a = f b ∧
      SameLexemes ts us := by
  cases x with
  | none =>
    cases y with
    | none => exact Or.inl ⟨rfl, rfl⟩
    | some q => cases h
  | some p =>
    cases y with
    | none => cases h
    | some q =>
      obtain ⟨hf, hts⟩ := Prod.mk.inj (Option.some.inj h)
      exact Or.inr ⟨p.1, q.1, p.2, q.2, rfl, rfl, hf, hts⟩

theorem alike_of_bare {r : Reader α} (h : ∀ ts, seen f (r (ts.map Token.bare)) = seen f (r ts)) :
    Alike f r r := by
  intro ts us hsame
  rw [← h ts, ← h us, hsame.bare_eq]

theorem alike_pure {a a' : α} (h : f a = f a') : Alike f (pure a) (pure a') := by
  intro ts us hsame
  exact congrArg some (Prod.ext h hsame)

theorem alike_get : Alike (List.map Token.lexeme) (get : Reader (List Token)) get :=
  fun _ _ hsame => congrArg some (Prod.ext hsame hsame)

theorem alike_failure : Alike f (failure : Reader α) failure :=
  fun _ _ _ => rfl

theorem alike_bind {k k' : α → Reader β} (h : Alike f r r')
    (hk : ∀ a a', f a = f a' → Alike g (k a) (k' a')) : Alike g (r >>= k) (r' >>= k') := by
  intro ts us hsame
  show seen g ((r ts).bind fun p => k p.1 p.2) = seen g ((r' us).bind fun p => k' p.1 p.2)
  rcases cases_of_seen (h ts us hsame) with ⟨hr, hr'⟩ | ⟨a, b, ts', us', hr, hr', hf, hrest⟩
  · rw [hr, hr']
    rfl
  · rw [hr, hr']
    exact hk a b hf ts' us' hrest

/-- What comes first is seen as it is. -/
theorem alike_bind_id {k k' : α → Reader β} (h : Alike id r r') (hk : ∀ a, Alike g (k a) (k' a)) :
    Alike g (r >>= k) (r' >>= k') :=
  alike_bind h fun a a' heq => by
    obtain rfl : a = a' := heq
    exact hk a

theorem alike_map {h h' : α → β} (hr : Alike f r r') (hh : ∀ a a', f a = f a' → g (h a) = g (h' a')) :
    Alike g (h <$> r) (h' <$> r') :=
  alike_bind hr fun a a' heq => alike_pure (hh a a' heq)

theorem Alike.of_id (h : Alike id r r') : Alike f r r' := by
  intro ts us hsame
  have hseen := congrArg (Option.map fun p => (f p.1, p.2)) (h ts us hsame)
  simpa [seen, Function.comp_def] using hseen

theorem alike_orElse {s s' : Reader α} (h : Alike f r r') (hs : Alike f s s') :
    Alike f (r <|> s) (r' <|> s') := by
  intro ts us hsame
  show seen f (r ts <|> s ts) = seen f (r' us <|> s' us)
  rcases cases_of_seen (h ts us hsame) with ⟨hr, hr'⟩ | ⟨a, b, ts', us', hr, hr', hf, hrest⟩
  · rw [hr, hr']
    exact hs ts us hsame
  · rw [hr, hr']
    exact congrArg some (Prod.ext hf hrest)

theorem alike_ite {p : Prop} [Decidable p] {s s' : Reader α} (h : Alike f r r') (h' : Alike f s s') :
    Alike f (if p then r else s) (if p then r' else s') := by
  split
  · exact h
  · exact h'

/-- A token is taken for its lexeme. -/
theorem alike_token {f : Token → Option α} (h : ∀ t, f t.bare = f t) : Alike id (token f) (token f) := by
  refine alike_of_bare fun ts => ?_
  cases ts with
  | nil => rfl
  | cons t ts =>
    simp only [List.map_cons, token, h]
    cases f t with
    | none => rfl
    | some a => exact congrArg (fun ls => some (a, ls)) (sameLexemes_bare ts)

theorem alike_symbol (text : String) : Alike id (symbol text) (symbol text) :=
  alike_token fun _ => rfl

theorem alike_keyword (word : String) : Alike id (keyword word) (keyword word) :=
  alike_token fun _ => rfl

theorem alike_keywords (words : List String) : Alike id (keywords words) (keywords words) := by
  induction words with
  | nil => exact alike_pure rfl
  | cons word words ih => exact alike_bind_id (alike_keyword word) fun _ => ih

theorem alike_oneOf (words : List String) : Alike id (oneOf words) (oneOf words) :=
  alike_token fun _ => rfl

theorem alike_name (d : Dialect) : Alike id (name d) (name d) :=
  alike_token fun _ => rfl

theorem alike_optional_id (h : Alike id r r') : Alike id (optional r) (optional r') :=
  alike_orElse (alike_map h fun _ _ heq => congrArg some heq) (alike_pure rfl)

theorem alike_present {r r' : Reader Unit} (h : Alike id r r') : Alike id (present r) (present r') :=
  alike_map (alike_optional_id h) fun _ _ heq => congrArg Option.isSome heq

theorem alike_clause (words : List String) (h : Alike f r r') :
    Alike (Option.map f) (clause words r) (clause words r') := by
  refine alike_bind_id (alike_present (alike_keywords words)) fun b => alike_ite ?_ (alike_pure rfl)
  exact alike_map h fun _ _ heq => congrArg some heq

theorem alike_parenthesized (h : Alike f r r') : Alike f (parenthesized r) (parenthesized r') := by
  refine alike_bind_id (alike_symbol "(") fun _ => alike_bind h fun a a' heq => ?_
  exact alike_bind_id (alike_symbol ")") fun _ => alike_pure heq

/-- Behind what has been read stands a comma in both cases, or in neither. -/
theorem exists_next (h : Alike f r r') {ts us : List Token} (hsame : SameLexemes ts us) {a : α}
    {t : Token} {rest : List Token} (hr : r ts = some (a, t :: rest)) :
    ∃ b u rest', r' us = some (b, u :: rest') ∧ f a = f b ∧ t.isSymbol "," = u.isSymbol "," ∧
      t.lexeme = u.lexeme ∧ SameLexemes rest rest' := by
  rcases cases_of_seen (h ts us hsame) with ⟨hnone, -⟩ | ⟨_, b, _, us', hsome, hr', hf, hrest⟩
  · cases hr.symm.trans hnone
  cases hr.symm.trans hsome
  obtain ⟨u, rest', rfl, hlexeme, hrest'⟩ := hrest.exists_cons
  exact ⟨b, u, rest', hr', hf, congrArg (· == Lexeme.symbol ",") hlexeme, hlexeme, hrest'⟩

theorem commaSeparated_of_cons {ts : List Token} {a : α} {t : Token} {rest : List Token}
    (hr : r ts = some (a, t :: rest)) :
    commaSeparated r ts =
      if t.isSymbol "," && decide (rest.length < ts.length) then
        (commaSeparated r rest).map fun p => (a :: p.1, p.2)
      else if t.isSymbol "," then none
      else some ([a], t :: rest) := by
  rw [commaSeparated, hr]

theorem alike_commaSeparated (h : Alike f r r') :
    Alike (List.map f) (commaSeparated r) (commaSeparated r') := by
  intro ts us hsame
  -- by recursion on the first run; what is left gets shorter in both or in neither
  fun_induction commaSeparated r ts generalizing us with
  | case1 ts hr =>
    rcases cases_of_seen (h ts us hsame) with ⟨-, hr'⟩ | ⟨_, _, _, _, hsome, -⟩
    · rw [commaSeparated, hr']
    · cases hr.symm.trans hsome
  | case2 ts a hr =>
    rcases cases_of_seen (h ts us hsame) with ⟨hnone, -⟩ | ⟨_, b, _, us', hsome, hr', hf, hrest⟩
    · cases hr.symm.trans hnone
    cases hr.symm.trans hsome
    obtain rfl : us' = [] := by simpa [SameLexemes] using hrest.symm
    rw [commaSeparated, hr']
    simp [seen, hf]
  | case3 ts a t rest hr hcomma ih =>
    obtain ⟨b, u, rest', hr', hf, hsymbol, -, hrest⟩ := exists_next h hsame hr
    rw [hsymbol, hrest.length_eq, hsame.length_eq] at hcomma
    rw [commaSeparated_of_cons hr', if_pos hcomma]
    rcases cases_of_seen (ih rest' hrest) with
      ⟨hmore, hmore'⟩ | ⟨as, bs, ts', us', hmore, hmore', has, hleft⟩
    · rw [hmore, hmore']
      rfl
    · rw [hmore, hmore']
      exact congrArg some (Prod.ext (List.cons_eq_cons.2 ⟨hf, has⟩) hleft)
  | case4 ts a t rest hr hnot hcomma =>
    obtain ⟨b, u, rest', hr', hf, hsymbol, -, hrest⟩ := exists_next h hsame hr
    rw [hsymbol, hrest.length_eq, hsame.length_eq] at hnot
    rw [commaSeparated_of_cons hr', if_neg hnot, if_pos (hsymbol ▸ hcomma)]
  | case5 ts a t rest hr hnot hcomma =>
    obtain ⟨b, u, rest', hr', hf, hsymbol, hlexeme, hrest⟩ := exists_next h hsame hr
    rw [hsymbol, hrest.length_eq, hsame.length_eq] at hnot
    rw [commaSeparated_of_cons hr', if_neg hnot, if_neg (hsymbol ▸ hcomma)]
    exact congrArg some (Prod.ext (congrArg (fun c => [c]) hf) (List.cons_eq_cons.2 ⟨hlexeme, hrest⟩))

theorem alike_commaSeparated_id (h : Alike id r r') :
    Alike id (commaSeparated r) (commaSeparated r') := by
  have hlist := alike_commaSeparated h
  rwa [List.map_id_fun] at hlist

theorem alike_clause_id (words : List String) (h : Alike id r r') :
    Alike id (clause words r) (clause words r') := by
  have hoption := alike_clause words h
  rwa [Option.map_id_fun] at hoption

end Reader

namespace Expr

open Reader

/-- Behind `IS` the operator may be negated. -/
theorem readFrom_is {d : Dialect} {stack : List Frame} {e : Expr} {t : Token} {ts : List Token}
    {negated : Bool} (hop : BinaryOp.ofToken? t = none) (his : t.isKeyword "IS" = true)
    (hnegated : (ts.head?.any fun n => n.isKeyword "NOT") = negated) :
    readFrom d stack (some e) (t :: ts) =
      let op := if negated then BinaryOp.isNot else BinaryOp.is
      let rest := if negated then ts.drop 1 else ts
      let closed := unwind op.level stack e
      if d.comparesByIs then readFrom d (.left closed.2 op :: closed.1) none rest
      else if rest.head?.any fun n => n.isKeyword "NULL" then
        readFrom d closed.1 (some (.binary op closed.2 .null)) (rest.drop 1)
      else none := by
  rw [readFrom, ← hnegated]
  simp only [hop, his, if_true]

theorem alike_readFrom (d : Dialect) (stack : List Frame) (e : Option Expr) :
    Alike id (readFrom d stack e) (readFrom d stack e) := by
  refine alike_of_bare fun ts => ?_
  have hnone : ∀ {t : Token}, (∀ op, BinaryOp.ofToken? t = some op → False) →
      BinaryOp.ofToken? t = none :=
    fun hop => Option.eq_none_iff_forall_not_mem.2 hop
  have hrest : ∀ (ts : List Token) {b : Bool}, (if b then ts.drop 1 else ts).map Token.bare =
      if b then (ts.map Token.bare).drop 1 else ts.map Token.bare := by
    intro ts b
    cases b <;> simp
  -- a token and the bare one choose the same branch, and the induction hypothesis is about the rest
  fun_induction readFrom d stack e ts with
  | case1 => simp [readFrom]
  | case2 stack t ts frame hopened hroom ih =>
    rw [List.map_cons, readFrom]
    simp [*]
  | case3 stack t ts frame hopened hroom =>
    rw [List.map_cons, readFrom]
    simp [*]
  | case4 stack t ts hopened hoperand =>
    rw [List.map_cons, readFrom]
    simp [*]
  | case5 stack t f p s q rest hcall hopened hoperand ih =>
    have hopened' := (bare_opened t (p :: s :: q :: rest) d).trans hopened
    rw [List.map_cons, readFrom]
    simp only [List.map_cons] at hopened' ⊢
    simp [*]
  | case6 stack t f p s q rest hcall hopened hoperand ih =>
    have hopened' := (bare_opened t (p :: s :: q :: rest) d).trans hopened
    rw [List.map_cons, readFrom]
    simp only [List.map_cons] at hopened' ih ⊢
    simp [*]
  | case7 stack t operand hoperand ts hcall hopened ih =>
    rw [List.map_cons, readFrom]
    simp only [bare_opened, hopened, bare_operand, hoperand]
    split
    · -- the bare tokens do not look like a call, since these do not
      rename_i f p s q rest hts
      obtain ⟨t', ts', rfl, rfl, hts'⟩ := List.map_eq_cons_iff.1 hts
      obtain ⟨u', us', rfl, rfl, hus'⟩ := List.map_eq_cons_iff.1 hts'
      obtain ⟨v', vs', rfl, rfl, -⟩ := List.map_eq_cons_iff.1 hus'
      exact absurd rfl (hcall f t' u' v' vs' rfl)
    · exact ih
  | case8 => simp [readFrom]
  | case9 stack e t ts op hop stack' a hunwind hroom ih =>
    rw [List.map_cons, readFrom]
    simp [*]
  | case10 stack e t ts op hop stack' a hunwind hroom =>
    rw [List.map_cons, readFrom]
    simp [*]
  | case11 stack e t ts his negated op stack' a hunwind rest hcompares hop ih =>
    rw [List.map_cons, readFrom_is (t := t.bare) (hnone hop) his (bare_head ts _), ← hrest ts]
    simp only [negated, op, rest, dite_eq_ite] at hunwind ih ⊢
    simp only [hcompares, if_true, hunwind]
    exact ih
  | case12 stack e t ts his negated op stack' a hunwind rest hcompares hnull hop ih =>
    rw [List.map_cons, readFrom_is (t := t.bare) (hnone hop) his (bare_head ts _), ← hrest ts]
    simp only [negated, op, rest, dite_eq_ite] at hunwind hnull ih ⊢
    simp only [hcompares, if_false, Bool.false_eq_true, hunwind, bare_head, hnull, if_true]
    rw [← List.map_drop]
    exact ih
  | case13 stack e t ts his negated op stack' a hunwind rest hcompares hnull hop =>
    rw [List.map_cons, readFrom_is (t := t.bare) (hnone hop) his (bare_head ts _), ← hrest ts]
    simp only [negated, op, rest, dite_eq_ite] at hunwind hnull ⊢
    simp only [hcompares, if_false, Bool.false_eq_true, hunwind, bare_head, hnull]
  | case14 stack e t ts his stack' inner hunwind hclose hop ih =>
    rw [List.map_cons, readFrom]
    simp [*]
  | case15 stack e t ts his stack' inner hunwind hclose hop =>
    rw [List.map_cons, readFrom]
    simp [*]
  | case16 stack e t ts his whole hunwind hop =>
    rw [List.map_cons, readFrom]
    simp only [bare_binaryOp, bare_isKeyword, his, hunwind, hnone hop, Bool.false_eq_true, if_false]
    exact congrArg (fun ls => some (whole, t.lexeme :: ls)) (sameLexemes_bare ts)
  | case17 stack e t ts his hop hparen hwhole =>
    rw [List.map_cons, readFrom]
    simp [*]

theorem alike_read (d : Dialect) : Alike id (read d) (read d) := by
  refine alike_bind_id (alike_readFrom d [] none) fun e => ?_
  split
  · exact alike_bind_id alike_failure fun _ => alike_pure rfl
  · exact alike_pure rfl

end Expr

/-! ### Selections and statements -/

open Reader

theorem alike_readAlias (d : Dialect) : Alike id (Item.readAlias d) (Item.readAlias d) := by
  refine alike_bind_id (alike_present (alike_keyword "AS")) fun b => alike_ite ?_ ?_
  · exact alike_map (alike_name d) fun _ _ heq => congrArg some heq
  · exact alike_optional_id (alike_token fun _ => rfl)

/-- The text of an item is not printed. -/
theorem alike_item (d : Dialect) : Alike Item.render (Item.read d) (Item.read d) := by
  refine alike_bind alike_get fun before before' _ => ?_
  refine alike_bind_id (alike_present (alike_symbol "*")) fun b => alike_ite (alike_pure rfl) ?_
  refine alike_bind_id (Expr.alike_read d) fun e => ?_
  -- the texts in front of the items may differ, and are not printed
  have hend : Alike Item.render
      (do let after ← get; return .expr e (← Item.readAlias d) (takenText before after))
      (do let after ← get; return .expr e (← Item.readAlias d) (takenText before' after)) := by
    refine alike_bind alike_get fun after after' _ => ?_
    refine alike_bind_id (alike_readAlias d) fun label => alike_pure ?_
    cases label <;> rfl
  dsimp only
  split
  · exact alike_ite (alike_bind_id alike_failure fun _ => hend) hend
  · exact hend

theorem alike_order (d : Dialect) : Alike id (OrderTerm.read d) (OrderTerm.read d) := by
  refine alike_bind_id (Expr.alike_read d) fun e => ?_
  exact alike_bind_id (alike_optional_id (alike_oneOf _)) fun _ => alike_pure rfl

theorem alike_readItems (d : Dialect) :
    Alike (List.map Item.render) (Select.readItems d) (Select.readItems d) := by
  refine alike_bind alike_get fun ts us hsame => ?_
  have hhead := bare_head ts "FROM"
  rw [SameLexemes.bare_eq hsame, bare_head] at hhead
  dsimp only
  rw [hhead]
  exact alike_ite (alike_pure rfl) (alike_commaSeparated (alike_item d))

theorem alike_select (d : Dialect) : Alike Select.render (Select.read d) (Select.read d) := by
  refine alike_bind_id (alike_keyword "SELECT") fun _ => ?_
  refine alike_bind_id (alike_present (alike_keyword "DISTINCT")) fun distinct => ?_
  refine alike_bind (alike_readItems d) fun items items' hitems => ?_
  refine alike_bind_id (alike_clause_id _ (alike_name d)) fun table => ?_
  refine alike_bind_id (alike_clause_id _ (Expr.alike_read d)) fun condition => ?_
  refine alike_bind_id (alike_clause_id _ (alike_commaSeparated_id (alike_order d))) fun order => ?_
  refine alike_bind_id (alike_clause_id _ (Expr.alike_read d)) fun limit => alike_pure ?_
  have hempty : items.isEmpty = items'.isEmpty := by
    rw [← List.isEmpty_map, hitems, List.isEmpty_map]
  simp only [Select.render, hitems, hempty]

theorem alike_query (d : Dialect) : Alike Query.render (Query.read d) (Query.read d) := by
  refine alike_bind (alike_clause _ (alike_commaSeparated
    (f := fun p : Name × Select => p.1.render ++ " AS (" ++ p.2.render ++ ")") ?_)) ?_
  · refine alike_bind_id (alike_name d) fun name => alike_bind_id (alike_keyword "AS") fun _ => ?_
    refine alike_bind (alike_parenthesized (alike_select _)) fun s s' heq => alike_pure ?_
    simp only [heq]
  · intro named named' hnamed
    refine alike_bind (alike_select _) fun s s' hs => alike_pure ?_
    have hall := congrArg (Option.getD · []) hnamed
    have hmap : ∀ l? : Option (List (Name × Select)), (l?.map (List.map fun p =>
        p.1.render ++ " AS (" ++ p.2.render ++ ")")).getD [] =
          (l?.getD []).map fun p => p.1.render ++ " AS (" ++ p.2.render ++ ")" := by
      intro l?
      cases l? <;> rfl
    simp only [hmap] at hall
    simp only [Query.render, hall, hs]

namespace Statement

variable (d : Dialect)

theorem alike_readInsert (replacing : Bool) :
    Alike id (readInsert d replacing) (readInsert d replacing) := by
  refine alike_bind_id (alike_keyword "INTO") fun _ => alike_bind_id (alike_name d) fun table => ?_
  refine alike_bind_id (alike_optional_id (alike_parenthesized (alike_commaSeparated_id (alike_name d))))
    fun columns => alike_bind_id (alike_keyword "VALUES") fun _ => ?_
  have hrow : Alike id (parenthesized (commaSeparated (Expr.read d.inner)))
      (parenthesized (commaSeparated (Expr.read d.inner))) :=
    alike_parenthesized (alike_commaSeparated_id (Expr.alike_read _))
  exact alike_bind_id (alike_commaSeparated_id hrow) fun _ => alike_pure rfl

theorem alike_readUpdate : Alike id (readUpdate d) (readUpdate d) := by
  refine alike_bind_id (alike_name d) fun table => alike_bind_id (alike_keyword "SET") fun _ => ?_
  refine alike_bind_id (alike_commaSeparated_id ?_) fun changes => ?_
  · refine alike_bind_id (alike_name d) fun column => alike_bind_id (alike_symbol "=") fun _ => ?_
    exact alike_bind_id (Expr.alike_read d) fun _ => alike_pure rfl
  · exact alike_bind_id (alike_clause_id _ (Expr.alike_read d)) fun _ => alike_pure rfl

theorem alike_readDelete : Alike id (readDelete d) (readDelete d) := by
  refine alike_bind_id (alike_keyword "FROM") fun _ => alike_bind_id (alike_name d) fun table => ?_
  exact alike_bind_id (alike_clause_id _ (Expr.alike_read d)) fun _ => alike_pure rfl

theorem alike_readSizes : Alike id ColumnType.readSizes ColumnType.readSizes :=
  alike_bind_id (alike_optional_id (alike_parenthesized (alike_commaSeparated_id
    (alike_token fun _ => rfl)))) fun _ => alike_pure rfl

theorem bare_readWords (ts : List Token) :
    seen id (some (ColumnType.readWords (ts.map Token.bare))) =
      seen id (some (ColumnType.readWords ts)) := by
  fun_induction ColumnType.readWords ts with
  | case1 => rfl
  | case2 t ts word left hword more rest hmore ih =>
    rw [hmore, seen_some] at ih
    rw [List.map_cons, ColumnType.readWords, bare_readWord, hword, seen_some]
    exact ⟨congrArg (word :: ·) ih.1, ih.2⟩
  | case3 t ts hword =>
    rw [List.map_cons, ColumnType.readWords, bare_readWord, hword, seen_some]
    exact ⟨rfl, sameLexemes_bare (t :: ts)⟩

theorem alike_readType : Alike id (ColumnType.read d) (ColumnType.read d) := by
  refine alike_bind_id (alike_token fun _ => rfl) fun first => alike_ite ?_ ?_
  · refine alike_bind_id (alike_of_bare bare_readWords) fun more => ?_
    exact alike_bind_id alike_readSizes fun _ => alike_pure rfl
  · refine alike_ite ?_ ?_
    · refine alike_bind_id (alike_optional_id (alike_oneOf _)) fun more => ?_
      exact alike_bind_id alike_readSizes fun _ => alike_pure rfl
    · exact alike_bind_id alike_readSizes fun _ => alike_pure rfl

theorem bare_readRules (ts : List Token) :
    seen id (some (ColumnRule.readAll (ts.map Token.bare))) =
      seen id (some (ColumnRule.readAll ts)) := by
  fun_induction ColumnRule.readAll ts with
  | case1 t u ts h rules rest hmore ih =>
    rw [hmore, seen_some] at ih
    rw [List.map_cons, List.map_cons, ColumnRule.readAll, seen_some]
    simp only [bare_isKeyword, h, if_true]
    exact ⟨congrArg (ColumnRule.notNull :: ·) ih.1, ih.2⟩
  | case2 t u ts hnot h rules rest hmore ih =>
    rw [hmore, seen_some] at ih
    rw [List.map_cons, List.map_cons, ColumnRule.readAll, seen_some]
    simp only [bare_isKeyword, hnot, h, if_true]
    exact ⟨congrArg (ColumnRule.primaryKey :: ·) ih.1, ih.2⟩
  | case3 t u ts hnot h =>
    rw [List.map_cons, List.map_cons, ColumnRule.readAll, seen_some]
    simp only [bare_isKeyword, hnot, h]
    exact ⟨rfl, sameLexemes_bare (t :: u :: ts)⟩
  | case4 ts h =>
    rcases ts with _ | ⟨t, _ | ⟨u, ts⟩⟩
    · rfl
    · rfl
    · exact absurd rfl (h t u ts)

theorem alike_readColumn : Alike id (ColumnDef.read d) (ColumnDef.read d) := by
  refine alike_bind_id (alike_name d) fun name => ?_
  have hend : ∀ type, Alike id
      (do let rules ← fun ts => some (ColumnRule.readAll ts); return (⟨name, type, rules⟩ : ColumnDef))
      (do let rules ← fun ts => some (ColumnRule.readAll ts); return (⟨name, type, rules⟩ : ColumnDef)) :=
    fun type => alike_bind_id (alike_of_bare bare_readRules) fun rules => alike_pure rfl
  refine alike_ite ?_ ?_
  · exact alike_bind_id (alike_optional_id (alike_readType d)) hend
  · exact alike_bind_id (alike_map (alike_readType d) fun _ _ heq => congrArg some heq) hend

theorem alike_readCreate : Alike id (readCreate d) (readCreate d) := by
  refine alike_bind_id (alike_keyword "TABLE") fun _ => ?_
  refine alike_bind_id (alike_present (alike_keywords _)) fun unlessExists => ?_
  have hcolumns := alike_commaSeparated_id (alike_readColumn d)
  refine alike_bind_id (alike_name d) fun table => alike_ite ?_ ?_
  · exact alike_bind_id (alike_optional_id (alike_parenthesized (alike_optional_id hcolumns)))
      fun _ => alike_pure rfl
  · exact alike_bind_id (alike_parenthesized hcolumns) fun _ => alike_pure rfl

theorem alike_readDrop : Alike id (readDrop d) (readDrop d) := by
  refine alike_bind_id (alike_keyword "TABLE") fun _ => ?_
  refine alike_bind_id (alike_present (alike_keywords _)) fun ifExists => ?_
  exact alike_bind_id (alike_name d) fun _ => alike_pure rfl

theorem alike_readBegin : Alike id (readBegin d) (readBegin d) := by
  refine alike_bind_id (alike_optional_id (alike_oneOf _)) fun mode => ?_
  exact alike_bind_id (alike_optional_id (alike_oneOf _)) fun noun => alike_pure rfl

theorem alike_readRollback : Alike id (readRollback d) (readRollback d) := by
  refine alike_bind_id (alike_map (alike_optional_id (alike_oneOf _)) fun _ _ _ => rfl) fun _ => ?_
  refine alike_bind_id (alike_present (alike_keyword "TO")) fun b => alike_ite ?_ (alike_pure rfl)
  refine alike_bind_id (alike_map (alike_present (alike_keyword "SAVEPOINT")) fun _ _ _ => rfl) fun _ => ?_
  exact alike_bind_id (alike_name d) fun _ => alike_pure rfl

/-- **A statement is read by its lexemes**, as far as it is printed. -/
theorem alike_read (d : Dialect) : Alike render (read d) (read d) := by
  refine alike_bind_id (alike_orElse (alike_oneOf _) (alike_pure rfl)) fun opening => ?_
  split
  · exact (alike_readInsert _ _).of_id
  · exact (alike_readInsert _ _).of_id
  · exact (alike_readUpdate _).of_id
  · exact (alike_readDelete _).of_id
  · exact (alike_readCreate _).of_id
  · exact (alike_readDrop _).of_id
  · exact (alike_readBegin _).of_id
  · refine alike_bind_id (alike_map (alike_optional_id (alike_oneOf _)) fun _ _ _ => rfl) fun _ => ?_
    exact alike_pure rfl
  · exact (alike_readRollback _).of_id
  · exact alike_bind_id (alike_name _) fun _ => alike_pure rfl
  · refine alike_bind_id (alike_map (alike_present (alike_keyword "SAVEPOINT")) fun _ _ _ => rfl) fun _ => ?_
    exact alike_bind_id (alike_name _) fun _ => alike_pure rfl
  · exact alike_bind (alike_query _) fun _ _ heq => alike_pure heq

end Statement

/-! ### Scripts -/

theorem runs_bare (ts : List Token) :
    runs (ts.map Token.bare) = (runs ts).map (List.map Token.bare) := by
  induction ts with
  | nil => rfl
  | cons t ts ih =>
    rw [List.map_cons, runs, runs, ih, bare_lexeme]
    by_cases hstop : t.lexeme = .stop
    · simp only [hstop, if_true]
      rfl
    · simp only [hstop, if_false]
      cases runs ts <;> rfl

theorem chunks_bare (ts : List Token) :
    chunks (ts.map Token.bare) = (chunks ts).map (List.map Token.bare) := by
  unfold chunks
  rw [runs_bare, List.filter_map]
  congr 2
  funext run
  cases run <;> rfl

/-- What the statements in tokens are printed as; nothing if they cannot be read. -/
def printed? (d : Dialect) (ts : List Token) : Option (List String) :=
  if ts.any fun t => t.lexeme == .illegal then none
  else (Script.readChunks? d (chunks ts)).map (List.map Statement.render)

theorem split_eq (kind : DatabaseKind) (script : String) :
    Script.split kind script =
      match printed? (.ofKind kind) (tokens (.ofKind kind) script.toList) with
      | some texts => .ok texts
      | none => .error (.unreadableScript "a statement cannot be read") := by
  unfold Script.split Script.read? printed?
  by_cases hillegal : ((tokens (.ofKind kind) script.toList).any fun t => t.lexeme == .illegal) = true
  · simp only [hillegal, if_true]
  · simp only [hillegal, Bool.false_eq_true, if_false]
    cases Script.readChunks? (.ofKind kind) (chunks (tokens (.ofKind kind) script.toList)) <;> rfl

theorem readChunks?_bare (d : Dialect) (cs : List (List Token)) :
    (Script.readChunks? d (cs.map (List.map Token.bare))).map (List.map Statement.render) =
      (Script.readChunks? d cs).map (List.map Statement.render) := by
  induction cs with
  | nil => rfl
  | cons chunk more ih =>
    have hread := Statement.alike_read d (chunk.map Token.bare) chunk (sameLexemes_bare chunk)
    rw [List.map_cons, Script.readChunks?, Script.readChunks?]
    rcases cases_of_seen hread with ⟨hbare, hnone⟩ | ⟨s, s', ts, us, hbare, hsome, hs, hsame⟩
    · rw [hbare, hnone]
    · rw [hbare, hsome]
      cases ts with
      | nil =>
        obtain rfl : us = [] := by simpa [SameLexemes] using hsame.symm
        rfl
      | cons t ts =>
        obtain ⟨u, us', rfl, hlexeme, -⟩ := hsame.exists_cons
        have hend : t.isKeyword "END" = u.isKeyword "END" := by
          simp only [Token.isKeyword, hlexeme]
        simp only [hlexeme, hend]
        split
        · have hcons : ∀ s : Statement, (List.map Statement.render ∘ fun ss => s :: ss) =
              (s.render :: ·) ∘ List.map Statement.render := fun s => rfl
          rw [Option.map_map, Option.map_map, hcons, hcons, ← Option.map_map, ← Option.map_map, ih, hs]
        · split
          · exact congrArg (fun text => some [text]) hs
          · rfl

theorem printed?_of_sameLexemes (d : Dialect) {ts us : List Token} (h : SameLexemes ts us) :
    printed? d ts = printed? d us := by
  have hbare : ∀ ts : List Token, printed? d (ts.map Token.bare) = printed? d ts := by
    intro ts
    unfold printed?
    rw [chunks_bare, readChunks?_bare, List.any_map]
    rfl
  rw [← hbare ts, ← hbare us, h.bare_eq]

/-- **Gaps mean nothing.** Scripts with the same lexemes are split into the same statements. -/
theorem split_of_lexemes {kind : DatabaseKind} {a b : String}
    (h : SameLexemes (tokens (.ofKind kind) a.toList) (tokens (.ofKind kind) b.toList)) :
    Script.split kind a = Script.split kind b := by
  rw [split_eq, split_eq, printed?_of_sameLexemes _ h]

end DeferredTx.Sql
