import DeferredTx.Proofs.Session.Dependable

/-!
# Determined texts of the in-memory store

A statement that is not about transactions works on the tables alone, whatever transaction is around
them.

* `Store.within`: a store with another transaction.
* `Blind`: actions that do not see the transaction.
* `determined`: texts without transaction control are determined.
* The store is a database that can be depended on.
-/

namespace DeferredTx.Store

open Session Sql

variable {α β : Type}

/-- The same tables with another transaction around them, or none. -/
def within (x : Option Transaction) (s : Store) : Store :=
  { s with transaction := x }

/-- A result with another state. -/
def mapState (f : Store → Store) :
    EStateM.Result StatementError Store α → EStateM.Result StatementError Store α
  | .ok a s => .ok a (f s)
  | .error e s => .error e (f s)

/-- An action that does the same within every transaction, and leaves it as it is. -/
def Blind (act : EStateM StatementError Store α) : Prop :=
  ∀ x s, act (s.within x) = mapState (within x) (act s)

theorem blind_pure (a : α) : Blind (pure a) :=
  fun _ _ => rfl

theorem blind_throw (e : StatementError) : Blind (throw e : EStateM StatementError Store α) :=
  fun _ _ => rfl

theorem blind_bind {act : EStateM StatementError Store α} {f : α → EStateM StatementError Store β}
    (h : Blind act) (hf : ∀ a, Blind (f a)) : Blind (act >>= f) := by
  intro x s
  simp only [bind, EStateM.bind, h x s]
  cases act s with
  | ok a s' => exact hf a x s'
  | error e s' => rfl

theorem blind_discard {act : EStateM StatementError Store α} (h : Blind act) : Blind (discard act) := by
  intro x s
  simp only [discard, Functor.mapConst, Function.comp_apply, EStateM.map, h x s]
  cases act s <;> rfl

theorem blind_foldlM {ι : Type} {f : β → ι → EStateM StatementError Store β} :
    ∀ (l : List ι) (b : β), (∀ i ∈ l, ∀ b', Blind (f b' i)) → Blind (l.foldlM f b)
  | [], b, _ => blind_pure b
  | i :: l, b, h => by
    rw [List.foldlM_cons]
    exact blind_bind (h i List.mem_cons_self b) fun b' =>
      blind_foldlM l b' fun j hj => h j (List.mem_cons_of_mem _ hj)

theorem blind_mapM {ι : Type} {f : ι → EStateM StatementError Store α} :
    ∀ l : List ι, (∀ i ∈ l, Blind (f i)) → Blind (l.mapM f)
  | [], _ => by
    rw [List.mapM_nil]
    exact blind_pure []
  | i :: l, h => by
    rw [List.mapM_cons]
    refine blind_bind (h i List.mem_cons_self) fun a => ?_
    refine blind_bind (blind_mapM l fun j hj => h j (List.mem_cons_of_mem _ hj)) fun as => ?_
    exact blind_pure _

/-- A statement that is not about transactions comes to the same within every transaction. -/
theorem perform_within {statement : Sql.Statement} (hc : controls statement = false)
    (x : Option Transaction) (s : Store) :
    (s.within x).perform statement = (s.perform statement).map fun p => (p.1, p.2.within x) := by
  -- the tables, which are all that is read, are the same
  cases statement with
  | query q =>
    simp only [perform, within]
    cases orRefuse (s.tables.query? q) <;> rfl
  | insert replacing table columns rows =>
    simp only [perform, within]
    cases s.tables.insert replacing table columns rows <;> rfl
  | update table changes condition =>
    simp only [perform, within]
    cases s.tables.update table changes condition <;> rfl
  | delete table condition =>
    simp only [perform, within]
    cases s.tables.delete table condition <;> rfl
  | createTable unlessExists table columns =>
    simp only [perform, within]
    cases s.tables.createTable unlessExists table columns <;> rfl
  | dropTable ifExists table =>
    simp only [perform, within]
    cases s.tables.dropTable ifExists table <;> rfl
  | begin | commit | rollback | savepoint | release | rollbackTo => cases hc

theorem blind_step {chunk : List Token}
    (h : (Sql.Statement.read .store chunk).all (fun p => !controls p.1) = true) :
    Blind (step chunk) := by
  intro x s
  unfold step
  split
  · rename_i statement gap text hread
    have hc : controls statement = false := by simpa [hread] using h
    rw [perform_within hc]
    cases s.perform statement with
    | error fault => cases fault <;> rfl
    | ok p =>
      simp only [Except.map]
      split <;> rfl
  · rfl

theorem blind_execute {sql : String} (h : allPass (fun s => !controls s) sql = true) :
    Blind (execute sql) := by
  refine blind_foldlM _ _ fun chunk hm total => ?_
  refine blind_bind (blind_discard (blind_step (List.all_eq_true.1 h chunk hm))) fun _ => ?_
  exact fun x s => rfl

theorem blind_query {sql : String} (h : allPass (fun s => !controls s) sql = true) :
    Blind (query sql) := by
  have hstep : ∀ chunk ∈ statements sql, Blind (step chunk) :=
    fun chunk hm => blind_step (List.all_eq_true.1 h chunk hm)
  refine blind_bind (blind_mapM _ hstep) fun results => ?_
  split
  · exact blind_pure _
  · exact blind_throw _

/-- The statement of a request that is read succeeds with the text of the request. -/
theorem execute_of_perform {r : Request} (hr : r.Proper)
    (hread : Sql.Statement.read .store (chunk r) = some (requested r, [⟨.stop, [], []⟩]))
    {s s' : Store} (h : s.perform (requested r) = .ok (none, s')) :
    execute r.text s = .ok (0 + s'.changed) s' :=
  execute_of_sole ⟨_, _, _, statements_text hr, hread⟩ h

/-- The savepoints of an open transaction, the newest first. -/
def marksOf (s : Store) : List Mark :=
  (s.transaction.map Transaction.marks).getD []

/-- Two stores that are alike in all that can be asked for are one. -/
theorem eq_of_alike {s t : Store} {before : Catalog} (hs : phaseOf s.transaction = .begun before)
    (ht : phaseOf t.transaction = .begun before) (htables : s.tables = t.tables)
    (hmarks : marksOf s = marksOf t) (hchanged : s.changed = t.changed) : s = t := by
  obtain ⟨u, hu, hus, hub⟩ := eq_some_of_phaseOf hs
  obtain ⟨v, hv, hvs, hvb⟩ := eq_some_of_phaseOf ht
  have hsame : u = v := by
    obtain ⟨before', marks, bySavepoint⟩ := u
    obtain ⟨before'', marks', bySavepoint'⟩ := v
    simp only [marksOf, hu, hv, Option.map_some, Option.getD_some] at hmarks
    subst hmarks
    dsimp only at hus hvs hub hvb
    rw [hus, hvs, hub, hvb]
  obtain ⟨tables, transaction, changed⟩ := s
  obtain ⟨tables', transaction', changed'⟩ := t
  dsimp only at htables hchanged hu hv
  rw [htables, hchanged, hu, hv, hsame]

/-- **The store can be depended on.** -/
instance : Dependable Store Catalog (List Mark) Nat where
  marks := marksOf
  unmarked := []
  memory s := s.changed
  begin_ok := by
    intro s hidle
    have hp : s.perform (requested .begin) =
        .ok (none, { s with transaction := some { before := s.tables } }) := by
      simp only [requested, perform, Store.begin, eq_none_of_phaseOf hidle]
      rfl
    exact ⟨_, _, execute_of_perform (r := .begin) trivial rfl hp, rfl, rfl⟩
  commit_ok := by
    intro s before hbegun
    obtain ⟨u, hs, -, -⟩ := eq_some_of_phaseOf hbegun
    have hp : s.perform (requested .commit) = .ok (none, { s with transaction := none }) := by
      simp only [requested, perform, Store.commit, hs]
      rfl
    exact ⟨_, _, execute_of_perform (r := .commit) trivial rfl hp, rfl⟩
  rollback_ok := by
    intro s before hbegun
    obtain ⟨u, hs, -, -⟩ := eq_some_of_phaseOf hbegun
    have hp : s.perform (requested .rollback) =
        .ok (none, { s with tables := u.before, transaction := none }) := by
      simp only [requested, perform, Store.rollback, hs]
      rfl
    exact ⟨_, _, execute_of_perform (r := .rollback) trivial rfl hp, rfl⟩
  mark_alike := by
    intro r hr hm s t before hs ht htables hmarks hchanged
    obtain rfl := eq_of_alike hs ht htables hmarks hchanged
    exact ⟨rfl, rfl, rfl, rfl⟩

/-- A blind action depends on the tables alone. -/
theorem settled_of_blind {act : EStateM StatementError Store α} (h : Blind act) : Settled act := by
  have hkeeps : ∀ s, (stateOf (act s)).transaction = s.transaction := by
    intro s
    have hs := h s.transaction s
    rw [show s.within s.transaction = s from rfl] at hs
    rw [hs]
    cases act s <;> rfl
  refine ⟨fun s => congrArg phaseOf (hkeeps s), fun s => ?_, fun s t htables hchanged => ?_⟩
  · show marksOf (stateOf (act s)) = marksOf s
    rw [marksOf, hkeeps, marksOf]
  · have ht : t = s.within t.transaction := by
      obtain ⟨tables, transaction, changed⟩ := s
      obtain ⟨tables', transaction', changed'⟩ := t
      obtain rfl : tables = tables' := htables
      obtain rfl : changed = changed' := hchanged
      rfl
    rw [ht, h]
    cases act s <;> exact ⟨rfl, rfl, rfl⟩

/-- **A text without transaction control is determined**: its outcome depends on the tables, and not
on the transaction around them. -/
theorem determined {sql : String} (h : allPass (fun s => !controls s) sql = true) : Determined Store sql where
  execute := settled_of_blind (blind_execute h)
  query := settled_of_blind (blind_query h)

end DeferredTx.Store
