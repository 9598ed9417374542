import DeferredTx.Sql.Statement.Reader
import DeferredTx.Statement.Kind

/-!
# The word that opens a statement

* `Statement.kind`: what a statement does, by what it has been read as.
* `openings`: the words that open statements, with what they do.
* `opening_of_read`: **the first token of a statement is one of them, and tells its kind.**
-/

namespace DeferredTx.Sql

open DeferredTx.Statement (Kind)

/-- What a statement does. Rows that are replaced are not taken for an update. -/
def Statement.kind : Statement → Kind
  | query _ => .query
  | insert false .. | update .. | delete .. => .update
  | createTable .. | dropTable .. => .schemaChange
  | _ => .unknown

/-- The words that open statements, with what they do. -/
def openings : List (String × Kind) :=
  [("SELECT", .query), ("WITH", .query), ("INSERT", .update), ("UPDATE", .update),
   ("DELETE", .update), ("CREATE", .schemaChange), ("DROP", .schemaChange), ("REPLACE", .unknown),
   ("BEGIN", .unknown), ("COMMIT", .unknown), ("ROLLBACK", .unknown), ("SAVEPOINT", .unknown),
   ("RELEASE", .unknown)]

namespace Reader

variable {α β : Type} {ts rest : List Token}

theorem exists_of_bind {r : Reader α} {f : α → Reader β} {b : β}
    (h : (r >>= f) ts = some (b, rest)) : ∃ a ts', r ts = some (a, ts') ∧ f a ts' = some (b, rest) := by
  obtain ⟨⟨a, ts'⟩, hr, hf⟩ := Option.bind_eq_some_iff.1 h
  exact ⟨a, ts', hr, hf⟩

theorem exists_of_map {r : Reader α} {f : α → β} {b : β} (h : (f <$> r) ts = some (b, rest)) :
    ∃ a, r ts = some (a, rest) ∧ f a = b := by
  obtain ⟨⟨a, ts'⟩, hr, hpair⟩ := Option.bind_eq_some_iff.1 h
  cases hpair
  exact ⟨a, hr, rfl⟩

theorem exists_of_token {f : Token → Option α} {a : α} (h : token f ts = some (a, rest)) :
    ∃ t, ts = t :: rest ∧ f t = some a := by
  cases ts with
  | nil => cases h
  | cons t ts =>
    obtain ⟨a', hf, hpair⟩ := Option.map_eq_some_iff.1 h
    cases hpair
    exact ⟨t, rfl, hf⟩

theorem exists_of_keyword {word : String} {u : Unit} (h : keyword word ts = some (u, rest)) :
    ∃ t, ts = t :: rest ∧ t.isKeyword word = true := by
  obtain ⟨t, hts, hf⟩ := exists_of_token h
  refine ⟨t, hts, ?_⟩
  split at hf
  · assumption
  · cases hf

theorem exists_of_oneOf {words : List String} {word : String} (h : oneOf words ts = some (word, rest)) :
    ∃ t, ts = t :: rest ∧ word ∈ words ∧ t.isKeyword word = true := by
  obtain ⟨t, hts, hf⟩ := exists_of_token h
  exact ⟨t, hts, List.mem_of_find?_eq_some hf, List.find?_some hf⟩

/-- What one reader or else another one has taken. -/
theorem cases_of_orElse {r r' : Reader α} {a : α} (h : (r <|> r') ts = some (a, rest)) :
    r ts = some (a, rest) ∨ r' ts = some (a, rest) := by
  have horElse : (r <|> r') ts = (r ts <|> r' ts) := rfl
  rw [horElse] at h
  cases hr : r ts with
  | none =>
    rw [hr] at h
    exact Or.inr h
  | some p =>
    rw [hr] at h
    exact Or.inl h

theorem cases_of_present {r : Reader Unit} {b : Bool} (h : present r ts = some (b, rest)) :
    (b = true ∧ r ts = some ((), rest)) ∨ (b = false ∧ rest = ts) := by
  obtain ⟨u?, hr, rfl⟩ := exists_of_map h
  rcases cases_of_orElse hr with hsome | hnone
  · obtain ⟨u, hu, rfl⟩ := exists_of_map hsome
    exact Or.inl ⟨rfl, hu⟩
  · cases hnone
    exact Or.inr ⟨rfl, rfl⟩

/-- What every value that a reader gives has in common. -/
def Yields (P : α → Prop) (r : Reader α) : Prop :=
  ∀ ts a rest, r ts = some (a, rest) → P a

variable {P : α → Prop}

theorem yields_pure {a : α} (h : P a) : Yields P (pure a) := by
  intro ts a' rest ha
  cases ha
  exact h

theorem yields_bind {r : Reader β} {f : β → Reader α} (h : ∀ b, Yields P (f b)) :
    Yields P (r >>= f) := by
  intro ts a rest ha
  obtain ⟨b, ts', -, hb⟩ := exists_of_bind ha
  exact h b ts' a rest hb

theorem yields_ite {p : Prop} [Decidable p] {r r' : Reader α} (h : Yields P r) (h' : Yields P r') :
    Yields P (if p then r else r') := by
  split
  · exact h
  · exact h'

end Reader

open Reader

/-- A selection begins with its keyword. -/
theorem isKeyword_of_select {d : Dialect} {ts rest : List Token} {s : Select}
    (h : Select.read d ts = some (s, rest)) : ∃ t ts', ts = t :: ts' ∧ t.isKeyword "SELECT" = true := by
  obtain ⟨_, ts', hkeyword, -⟩ := exists_of_bind h
  obtain ⟨t, hts, ht⟩ := exists_of_keyword hkeyword
  exact ⟨t, ts', hts, ht⟩

/-- A query begins with the keyword of a selection, or with that for the ones it selects from. -/
theorem isKeyword_of_query {d : Dialect} {ts rest : List Token} {q : Query}
    (h : Query.read d ts = some (q, rest)) :
    ∃ t ts', ts = t :: ts' ∧ (t.isKeyword "WITH" = true ∨ t.isKeyword "SELECT" = true) := by
  obtain ⟨named, ts₁, hclause, hbody⟩ := exists_of_bind h
  obtain ⟨b, ts₂, hpresent, hrest⟩ := exists_of_bind hclause
  rcases cases_of_present hpresent with ⟨-, hkeywords⟩ | ⟨rfl, rfl⟩
  · obtain ⟨_, ts₃, hkeyword, -⟩ := exists_of_bind hkeywords
    obtain ⟨t, hts, ht⟩ := exists_of_keyword hkeyword
    exact ⟨t, ts₃, hts, Or.inl ht⟩
  · cases hrest
    obtain ⟨_, _, hselect, -⟩ := exists_of_bind hbody
    obtain ⟨t, ts', hts, ht⟩ := isKeyword_of_select hselect
    exact ⟨t, ts', hts, Or.inr ht⟩

namespace Statement

variable {d : Dialect}

theorem yields_readInsert (replacing : Bool) :
    Yields (fun s => s.kind = if replacing then .unknown else .update) (readInsert d replacing) := by
  refine yields_bind fun _ => yields_bind fun _ => yields_bind fun _ => yields_bind fun _ =>
    yields_bind fun _ => yields_pure ?_
  cases replacing <;> rfl

theorem yields_readUpdate : Yields (fun s => s.kind = .update) (readUpdate d) :=
  yields_bind fun _ => yields_bind fun _ => yields_bind fun _ => yields_bind fun _ => yields_pure rfl

theorem yields_readDelete : Yields (fun s => s.kind = .update) (readDelete d) :=
  yields_bind fun _ => yields_bind fun _ => yields_bind fun _ => yields_pure rfl

theorem yields_readCreate : Yields (fun s => s.kind = .schemaChange) (readCreate d) := by
  refine yields_bind fun _ => yields_bind fun _ => yields_bind fun _ => yields_ite ?_ ?_
  · exact yields_bind fun _ => yields_pure rfl
  · exact yields_bind fun _ => yields_pure rfl

theorem yields_readDrop : Yields (fun s => s.kind = .schemaChange) (readDrop d) :=
  yields_bind fun _ => yields_bind fun _ => yields_bind fun _ => yields_pure rfl

theorem yields_readBegin : Yields (fun s => s.kind = .unknown) (readBegin d) :=
  yields_bind fun _ => yields_bind fun _ => yields_pure rfl

theorem yields_readRollback : Yields (fun s => s.kind = .unknown) (readRollback d) := by
  refine yields_bind fun _ => yields_bind fun b => yields_ite ?_ (yields_pure rfl)
  exact yields_bind fun _ => yields_bind fun _ => yields_pure rfl

theorem yields_commit : Yields (fun s : Statement => s.kind = .unknown)
    (do discard <| optional (oneOf d.transactionWords); return commit) :=
  yields_bind fun _ => yields_pure rfl

theorem yields_savepoint : Yields (fun s : Statement => s.kind = .unknown)
    (do return savepoint (← name d)) :=
  yields_bind fun _ => yields_pure rfl

theorem yields_release : Yields (fun s : Statement => s.kind = .unknown)
    (do discard <| present (keyword "SAVEPOINT"); return release (← name d)) :=
  yields_bind fun _ => yields_bind fun _ => yields_pure rfl

/-- **The word that opens a statement tells its kind.** -/
theorem opening_of_read {ts rest : List Token} {s : Statement} (h : read d ts = some (s, rest)) :
    ∃ t ts' word, ts = t :: ts' ∧ t.isKeyword word = true ∧ (word, s.kind) ∈ openings := by
  obtain ⟨word, ts₁, hword, hbody⟩ := exists_of_bind h
  rcases cases_of_orElse hword with hone | hnone
  · obtain ⟨t, rfl, hmem, ht⟩ := exists_of_oneOf hone
    refine ⟨t, ts₁, word, rfl, ht, ?_⟩
    split at hbody
    · rw [yields_readInsert false _ _ _ hbody]
      decide
    · rw [yields_readInsert true _ _ _ hbody]
      decide
    · rw [yields_readUpdate _ _ _ hbody]
      decide
    · rw [yields_readDelete _ _ _ hbody]
      decide
    · rw [yields_readCreate _ _ _ hbody]
      decide
    · rw [yields_readDrop _ _ _ hbody]
      decide
    · rw [yields_readBegin _ _ _ hbody]
      decide
    · rw [yields_commit _ _ _ hbody]
      decide
    · rw [yields_readRollback _ _ _ hbody]
      decide
    · rw [yields_savepoint _ _ _ hbody]
      decide
    · rw [yields_release _ _ _ hbody]
      decide
    · -- every word on the list is one of those
      rcases List.mem_append.1 hmem with hfixed | hreplace
      · simp_all
      · split at hreplace <;> simp_all
  · cases hnone
    obtain ⟨q, _, hq, hpure⟩ := exists_of_bind hbody
    cases hpure
    obtain ⟨t, ts', rfl, hwith | hselect⟩ := isKeyword_of_query hq
    · exact ⟨t, ts', "WITH", rfl, hwith, List.mem_cons_of_mem _ List.mem_cons_self⟩
    · exact ⟨t, ts', "SELECT", rfl, hselect, List.mem_cons_self⟩

end Statement

end DeferredTx.Sql
