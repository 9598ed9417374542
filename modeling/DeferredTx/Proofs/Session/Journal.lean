import DeferredTx.Proofs.Session.PassThrough
import Mathlib.Data.List.Chain

/-!
# The journal of a connection

What a connection sends in the course of a call is not part of the state that it leaves behind. A
journaled connection writes it down, with its own state at that moment.

* `Sending`, `Journaled`: a request that has been sent, and a connection with its journal.
* `journaled_sim`: keeping a journal changes nothing.
* `Call.Sends`, `Steady.perform`, `StableUnder.perform`: the requests that a call can send, and
  **nothing else is sent**.
* `brackets`: the successful `BEGIN`, `COMMIT` and `ROLLBACK` of the connection's own.
* `Bracketed`: the invariant of the journal.
* `brackets_alternate`: **a connection brackets what it sends**, all through its life.
-/

namespace DeferredTx.Session

variable {σ τ α β : Type}

/-- The requests that a call can send. -/
def Call.Sends : Call → Request → Prop
  | .setAutoCommit _, r | .commit, r => r = .commit
  | .rollback, r => r = .rollback
  | .setSavepoint name, r => r = .begin ∨
    ∃ id, r = .savepoint (Savepoint.sqlName ⟨id, name⟩) ∧
      ∀ n, name = some n → Savepoint.checkName n = .ok ()
  | .rollbackTo s, r => r = .rollbackTo s.sqlName
  | .release s, r => r = .release s.sqlName
  | .execute sql, r | .query sql, r => r = .begin ∨ r = .statement sql

/-- A request that a connection has sent, whether as a statement or as a query. -/
structure Sending where
  request : Request
  /-- The connection's flag at that moment. -/
  autoCommit : Bool
  /-- Whether it had a transaction open. -/
  inTransaction : Bool
  /-- Whether the database has carried it out. -/
  done : Bool
  deriving DecidableEq, Repr

/-- A connection with the journal of what it has sent, the earliest first. -/
structure Journaled (σ : Type) where
  connection : Connection σ
  journal : List Sending

namespace Journaled

/-- Does on the connection what sends nothing. -/
def quietly (act : Action (Connection σ) α) : Action (Journaled σ) α := fun j =>
  match act j.connection with
  | .ok a c => .ok a { j with connection := c }
  | .error e c => .error e { j with connection := c }

/-- Sends a request and writes it down. -/
def note (r : Request) (act : EStateM StatementError σ α) : Action (Journaled σ) α := fun j =>
  match Connection.onDatabase act j.connection with
  | .ok a c =>
    .ok a ⟨c, j.journal ++ [⟨r, j.connection.autoCommit, j.connection.inTransaction, true⟩]⟩
  | .error e c =>
    .error e ⟨c, j.journal ++ [⟨r, j.connection.autoCommit, j.connection.inTransaction, false⟩]⟩

/-- The journaled connection `j` is the connection `c` with a journal. -/
def Holds (j : Journaled σ) (c : Connection σ) : Prop :=
  j.connection = c

theorem simulates_quietly (act : Action (Connection σ) α) : Simulates Holds (quietly act) act := by
  rintro j _ rfl
  unfold quietly
  cases act j.connection with
  | ok a c => exact .ok a (R := Holds) rfl
  | error e c => exact .error e (R := Holds) rfl

theorem simulates_note (r : Request) (act : EStateM StatementError σ α) :
    Simulates Holds (note r act) (Connection.onDatabase act) := by
  rintro j _ rfl
  unfold note
  cases Connection.onDatabase act j.connection with
  | ok a c => exact .ok a (R := Holds) rfl
  | error e c => exact .error e (R := Holds) rfl

theorem ends_quietly (act : Action (Connection σ) α) (j : Journaled σ) {Q : α → Journaled σ → Prop}
    {R : DbError → Journaled σ → Prop} :
    Ends (quietly act) j Q R ↔ Ends act j.connection (fun a c => Q a { j with connection := c })
      fun e c => R e { j with connection := c } := by
  simp only [Ends, quietly]
  cases act j.connection <;> rfl

theorem ends_note (r : Request) (act : EStateM StatementError σ α) (j : Journaled σ)
    {Q : α → Journaled σ → Prop} {R : DbError → Journaled σ → Prop} :
    Ends (note r act) j Q R ↔ Ends (Connection.onDatabase act) j.connection
      (fun a c => Q a ⟨c, j.journal ++
        [⟨r, j.connection.autoCommit, j.connection.inTransaction, true⟩]⟩)
      fun e c => R e ⟨c, j.journal ++
        [⟨r, j.connection.autoCommit, j.connection.inTransaction, false⟩]⟩ := by
  simp only [Ends, note]
  cases Connection.onDatabase act j.connection <;> rfl

theorem kept_quietly {P : Journaled σ → Prop} {act : Action (Connection σ) α}
    (h : ∀ journal, Kept (fun c => P ⟨c, journal⟩) act) : Kept P (quietly act) := by
  intro j hj
  rw [ends_quietly]
  exact h j.journal j.connection hj

/-- A refusal changes nothing. -/
theorem kept_refuseInAutoCommit {P : Journaled σ → Prop} (call : TransactionCall) :
    Kept P (quietly (Connection.refuseInAutoCommit call)) :=
  kept_quietly fun _ => Connection.kept_refuseInAutoCommit call

theorem kept_refuseBadName {P : Journaled σ → Prop} (name : Option String) :
    Kept P (quietly (Connection.refuseBadName name)) :=
  kept_quietly fun _ => Connection.kept_refuseBadName name

variable [Database σ]

def send (r : Request) : Action (Journaled σ) Nat :=
  note r (Database.execute r)

def ensureTransaction : Action (Journaled σ) Unit := do
  let c := (← get).connection
  if !c.autoCommit && !c.inTransaction then
    discard <| send .begin
    quietly (modify fun c => { c with inTransaction := true })

def endTransaction (r : Request) : Action (Journaled σ) Unit := do
  if (← get).connection.inTransaction then
    discard <| send r
    quietly (modify fun c => { c with inTransaction := false })

/-- The methods of a connection, with a note of every request. -/
instance : Delegate (Journaled σ) where
  autoCommit := quietly Delegate.autoCommit
  setAutoCommit on := do
    if on then endTransaction .commit
    quietly (modify fun c => { c with autoCommit := on })
  commit := do
    quietly (Connection.refuseInAutoCommit .commit)
    endTransaction .commit
  rollback := do
    quietly (Connection.refuseInAutoCommit .rollback)
    endTransaction .rollback
  setSavepoint name := do
    quietly (Connection.refuseInAutoCommit .setSavepoint)
    quietly (Connection.refuseBadName name)
    ensureTransaction
    quietly (modify fun c => { c with savepoints := c.savepoints + 1 })
    let s : Savepoint := ⟨(← get).connection.savepoints, name⟩
    discard <| send (.savepoint s.sqlName)
    return s
  rollbackTo s := do
    quietly (Connection.refuseInAutoCommit .rollbackToSavepoint)
    discard <| send (.rollbackTo s.sqlName)
  release s := discard <| send (.release s.sqlName)
  execute sql := do
    ensureTransaction
    send (.statement sql)
  query sql := do
    ensureTransaction
    note (.statement sql) (Database.query sql)
  close := quietly Delegate.close

/-- A connection as it is opened, with nothing in its journal. -/
structure IsFresh (j : Journaled σ) : Prop where
  connection : j.connection.IsFresh
  journal : j.journal = []

theorem simulates_ensureTransaction :
    Simulates Holds (ensureTransaction (σ := σ)) Connection.ensureTransaction := by
  refine simulates_get fun j c hjc => ?_
  obtain rfl := hjc
  refine simulates_ite _ ?_ (simulates_pure _)
  exact simulates_bind (simulates_discard (simulates_note _ _)) fun _ => simulates_quietly _

theorem simulates_endTransaction (r : Request) :
    Simulates Holds (endTransaction (σ := σ) r) (Connection.endTransaction r) := by
  refine simulates_get fun j c hjc => ?_
  obtain rfl := hjc
  refine simulates_ite _ ?_ (simulates_pure _)
  exact simulates_bind (simulates_discard (simulates_note _ _)) fun _ => simulates_quietly _

/-- **Keeping a journal changes nothing**: every method answers as it does without, and leaves the
same connection behind. -/
theorem journaled_sim : DelegateSim (Holds (σ := σ)) where
  autoCommit := simulates_quietly _
  setAutoCommit on := by
    have hset := simulates_quietly (σ := σ) (modify fun c => { c with autoCommit := on })
    cases on with
    | true => exact simulates_bind (simulates_endTransaction .commit) fun _ => hset
    | false => exact hset
  commit := simulates_bind (simulates_quietly _) fun _ => simulates_endTransaction _
  rollback := simulates_bind (simulates_quietly _) fun _ => simulates_endTransaction _
  setSavepoint name := by
    refine simulates_bind (simulates_quietly _) fun _ => ?_
    refine simulates_bind (simulates_quietly _) fun _ => ?_
    refine simulates_bind simulates_ensureTransaction fun _ => ?_
    refine simulates_bind (simulates_quietly _) fun _ => ?_
    refine simulates_get fun j c hjc => ?_
    obtain rfl := hjc
    exact simulates_bind (simulates_discard (simulates_note _ _)) fun _ => simulates_pure _
  rollbackTo s :=
    simulates_bind (simulates_quietly _) fun _ => simulates_discard (simulates_note _ _)
  release s := simulates_discard (simulates_note _ _)
  execute sql := simulates_bind simulates_ensureTransaction fun _ => simulates_note _ _
  query sql := simulates_bind simulates_ensureTransaction fun _ => simulates_note _ _

section Sends

/-- The savepoint that comes next. -/
def next (name : Option String) (j : Journaled σ) : Savepoint :=
  ⟨j.connection.savepoints + 1, name⟩

/-- The connection when the number of the next savepoint has been taken. -/
def counted (j : Journaled σ) : Journaled σ :=
  { j with connection := { j.connection with savepoints := j.connection.savepoints + 1 } }

variable {allowed : Request → Prop} {P : Journaled σ → Prop}

/-- A property that is kept by `allowed` requests, and by changes of the connection that leave the
database and the number of the last savepoint alone. -/
structure Steady (allowed : Request → Prop) (P : Journaled σ → Prop) : Prop where
  quiet {f : Connection σ → Connection σ}
    (hf : ∀ c, (f c).database = c.database ∧ (f c).savepoints = c.savepoints) :
    Kept P (quietly (modify f))
  execute {r : Request} (hr : allowed r) : Kept P (send r)
  query {sql : String} (hr : allowed (.statement sql)) :
    Kept P (note (.statement sql) (Database.query sql))

/-- The same for a property that has nothing to do with the numbers of savepoints. -/
structure StableUnder (allowed : Request → Prop) (P : Journaled σ → Prop) : Prop
    extends Steady allowed P where
  count : Kept P (quietly (modify fun c => { c with savepoints := c.savepoints + 1 }))

namespace Steady

theorem ensureTransaction (hP : Steady allowed P) (hr : allowed .begin) :
    Kept P ensureTransaction := by
  intro j h
  have hopened : Kept P (quietly (σ := σ) (modify fun c => { c with inTransaction := true })) :=
    hP.quiet fun _ => ⟨rfl, rfl⟩
  simp only [Journaled.ensureTransaction, ends_bind, ends_get, ends_ite, ends_pure, ends_discard]
  split
  · exact (hP.execute hr j h).mono (fun _ => hopened) fun _ _ h' => h'
  · exact h

theorem endTransaction (hP : Steady allowed P) {r : Request} (hr : allowed r) :
    Kept P (endTransaction r) := by
  intro j h
  have hended : Kept P (quietly (σ := σ) (modify fun c => { c with inTransaction := false })) :=
    hP.quiet fun _ => ⟨rfl, rfl⟩
  simp only [Journaled.endTransaction, ends_bind, ends_get, ends_ite, ends_pure, ends_discard]
  split
  · exact (hP.execute hr j h).mono (fun _ => hended) fun _ _ h' => h'
  · exact h

theorem discard_send (hP : Steady allowed P) {r : Request} (hr : allowed r) :
    Kept P (discard (send r)) := by
  intro j h
  rw [ends_discard]
  exact hP.execute hr j h

/-- **A call sends what it can send, and nothing else.** -/
theorem perform (hP : Steady allowed P) {k : Call} (hk : ∀ name, k ≠ .setSavepoint name)
    (h : ∀ r, k.Sends r → allowed r) : Kept P (Delegate.perform (δ := Journaled σ) k) := by
  have hanswer : ∀ {α : Type} {act : Action (Journaled σ) α} {f : α → Reply},
      Kept P act → Kept P (do return f (← act)) :=
    fun hact => kept_bind hact fun _ _ hj => hj
  cases k with
  | setAutoCommit on =>
    refine hanswer (f := fun _ => .done) ?_
    have hset : Kept P (quietly (σ := σ) (modify fun c => { c with autoCommit := on })) :=
      hP.quiet fun _ => ⟨rfl, rfl⟩
    cases on with
    | true => exact kept_bind (hP.endTransaction (h _ rfl)) fun _ => hset
    | false => exact hset
  | commit =>
    exact hanswer (kept_bind (kept_refuseInAutoCommit _) fun _ => hP.endTransaction (h _ rfl))
  | rollback =>
    exact hanswer (kept_bind (kept_refuseInAutoCommit _) fun _ => hP.endTransaction (h _ rfl))
  | setSavepoint name => exact absurd rfl (hk name)
  | rollbackTo s =>
    exact hanswer (kept_bind (kept_refuseInAutoCommit _) fun _ => hP.discard_send (h _ rfl))
  | release s => exact hanswer (hP.discard_send (h _ rfl))
  | execute sql =>
    have hbegin := hP.ensureTransaction (h _ (Or.inl rfl))
    exact hanswer (kept_bind hbegin fun _ => hP.execute (h _ (Or.inr rfl)))
  | query sql =>
    have hbegin := hP.ensureTransaction (h _ (Or.inl rfl))
    exact hanswer (kept_bind hbegin fun _ => hP.query (h _ (Or.inr rfl)))

/-- A new savepoint: what a steady property was kept by comes before the request that makes it, which
goes out under the next number. The name has been checked by then. -/
theorem ends_setSavepoint (hP : Steady allowed P) (hbegin : allowed .begin) (name : Option String)
    {j : Journaled σ} (hj : P j) {Q : Savepoint → Journaled σ → Prop}
    {R : DbError → Journaled σ → Prop} (hrefused : ∀ e j', P j' → R e j')
    (hmake : ∀ j', P j' → (∀ n, name = some n → Savepoint.checkName n = .ok ()) →
      Ends (send (.savepoint (j'.next name).sqlName)) j'.counted (fun _ => Q (j'.next name)) R) :
    Ends (Delegate.setSavepoint name) j Q R := by
  have hrefuse : Ends (quietly (Connection.refuseInAutoCommit .setSavepoint)) j (fun _ => P)
      fun _ => P := kept_refuseInAutoCommit _ j hj
  rw [Delegate.setSavepoint]
  simp only [instDelegate, ends_bind]
  refine hrefuse.mono (fun _ j₁ h₁ => ?_) hrefused
  rw [ends_quietly]
  refine Connection.ends_refuseBadName name _ (fun _ => hrefused _ _ h₁) fun hname => ?_
  refine (hP.ensureTransaction hbegin j₁ h₁).mono (fun _ j₂ h₂ => ?_) hrefused
  simp only [ends_quietly, ends_modify, ends_get, ends_discard, ends_pure]
  exact hmake j₂ h₂ hname

end Steady

namespace StableUnder

/-- A new savepoint, of which the name has been checked by the time that it is sent. -/
theorem setSavepoint (hP : StableUnder allowed P) {name : Option String}
    (h : ∀ r, (Call.setSavepoint name).Sends r → allowed r) :
    Kept P (Delegate.setSavepoint (δ := Journaled σ) name) := by
  intro j hj
  refine hP.toSteady.ends_setSavepoint (h _ (Or.inl rfl)) name hj (fun _ _ h' => h') fun j' h' hname => ?_
  exact hP.execute (h _ (Or.inr ⟨_, rfl, hname⟩)) _ (hP.count j' h')

/-- So does a new savepoint. -/
theorem perform (hP : StableUnder allowed P) {k : Call} (h : ∀ r, k.Sends r → allowed r) :
    Kept P (Delegate.perform (δ := Journaled σ) k) := by
  by_cases hk : ∃ name, k = .setSavepoint name
  · obtain ⟨name, rfl⟩ := hk
    exact kept_bind (hP.setSavepoint h) fun _ _ hj => hj
  · exact hP.toSteady.perform (not_exists.1 hk) h

/-- Where every request is allowed, the property holds all through the life of a connection. -/
theorem invariant (hP : StableUnder (fun _ => True) P) : Invariant P :=
  .of_calls (fun _ hj => hj) fun _ => hP.perform fun _ _ => trivial

end StableUnder

end Sends

section Complete

/-- The journal holds the texts that the database has been sent. -/
def Complete (j : Journaled (Tapped σ)) : Prop :=
  j.journal.map (fun x => x.request.text) = j.connection.database.sent

omit [Database σ] in
theorem kept_complete_note (r : Request) (act : EStateM StatementError σ α) :
    Kept (Complete (σ := σ)) (note r (Tapped.tap r.text act)) := by
  intro j h
  unfold Complete at h
  rw [ends_note, Connection.ends_onDatabase, Tapped.tap]
  cases act j.connection.database.database <;> simp [Complete, h]

/-- Every request and every change keeps the journal complete. -/
theorem stable_complete : StableUnder (fun _ => True) (Complete (σ := σ)) where
  quiet hf j h := by
    rw [ends_quietly, ends_modify]
    unfold Complete
    rw [(hf _).1]
    exact h
  execute _ := kept_complete_note _ _
  query _ := kept_complete_note _ _
  count _ h := h

/-- **The journal is complete**: it holds the texts that have been sent, in their order. -/
theorem complete_of_arises {j : Journaled (Tapped σ)}
    (h : Arises (fun j => j.IsFresh ∧ j.connection.database.sent = []) j) :
    j.journal.map (fun x => x.request.text) = j.connection.database.sent := by
  refine stable_complete.invariant.arises (fun j hj => ?_) h
  obtain ⟨hfresh, hsent⟩ := hj
  rw [Complete, hfresh.journal, hsent]
  rfl

end Complete

end Journaled

/-- What encloses the work of a transaction. -/
inductive Bracket where
  | opening
  | closing
  deriving DecidableEq, Repr

/-- The requests that begin or end a transaction on the connection's own account. -/
def Request.bracket? : Request → Option Bracket
  | .begin => some .opening
  | .commit | .rollback => some .closing
  | _ => none

/-- The texts of the caller's. -/
def Request.isText : Request → Bool
  | .statement _ => true
  | _ => false

/-- The requests that are to be part of a transaction while the flag is off. -/
def Request.needsTransaction : Request → Bool
  | .statement _ | .savepoint _ => true
  | _ => false

/-- The bracket of a sending, if it has been carried out. -/
def Sending.bracket? (x : Sending) : Option Bracket :=
  if x.done then x.request.bracket? else none

/-- The brackets of a journal in order. -/
def brackets (journal : List Sending) : List Bracket :=
  journal.filterMap Sending.bracket?

/-- A sending within a transaction where it needs one, and outside of any where it is to take effect
at once. -/
structure Sending.InPlace (x : Sending) : Prop where
  inside : x.request.needsTransaction = true → x.autoCommit = false → x.inTransaction = true
  outside : x.request.isText = true → x.autoCommit = true → x.inTransaction = false

/-- **The invariant of a journal.** The brackets alternate and begin with an opening one, the
connection has a transaction open exactly if the last one is an opening one, and then its flag is
off. Every sending was in place. -/
structure Bracketed (j : Journaled σ) : Prop where
  first : (brackets j.journal).head? ≠ some .closing
  alternate : (brackets j.journal).IsChain (· ≠ ·)
  last : j.connection.inTransaction = true ↔ (brackets j.journal).getLast? = some .opening
  orderly : j.connection.Orderly
  inPlace : ∀ x ∈ j.journal, x.InPlace

/-- A bracket is in place wherever it stands. -/
theorem Sending.inPlace_of_bracket {x : Sending} {b : Bracket} (h : x.request.bracket? = some b) :
    x.InPlace := by
  obtain ⟨r, on, inTransaction, done⟩ := x
  cases r with
  | begin | commit | rollback => exact ⟨nofun, nofun⟩
  | savepoint | rollbackTo | release | statement => cases h

theorem brackets_snoc (journal : List Sending) (x : Sending) :
    brackets (journal ++ [x]) = brackets journal ++ x.bracket?.toList := by
  unfold brackets
  rw [List.filterMap_append]
  cases hx : x.bracket? <;> simp [hx]

namespace Bracketed

variable {j : Journaled σ} {c : Connection σ} {x : Sending}

theorem inPlace_snoc (h : Bracketed j) (hx : x.InPlace) : ∀ y ∈ j.journal ++ [x], y.InPlace := by
  intro y hy
  rcases List.mem_append.1 hy with hj | hlast
  · exact h.inPlace y hj
  · obtain rfl := List.mem_singleton.1 hlast
    exact hx

/-- Anything but a bracket. -/
theorem note (h : Bracketed j) (hb : x.bracket? = none) (hx : x.InPlace)
    (hin : c.inTransaction = j.connection.inTransaction) (horderly : c.Orderly) :
    Bracketed ⟨c, j.journal ++ [x]⟩ := by
  have hsame : brackets (j.journal ++ [x]) = brackets j.journal := by
    rw [brackets_snoc, hb, Option.toList_none, List.append_nil]
  constructor
  · rw [hsame]
    exact h.first
  · rw [hsame]
    exact h.alternate
  · rw [hsame, hin]
    exact h.last
  · exact horderly
  · exact h.inPlace_snoc hx

/-- The bracket that turns the connection over, from no transaction to one or back. -/
theorem turn (h : Bracketed j)
    (hb : x.bracket? = some (if c.inTransaction then .opening else .closing)) (hx : x.InPlace)
    (hturn : c.inTransaction = !j.connection.inTransaction) (horderly : c.Orderly) :
    Bracketed ⟨c, j.journal ++ [x]⟩ := by
  have hsnoc : brackets (j.journal ++ [x]) =
      brackets j.journal ++ [if c.inTransaction then .opening else .closing] := by
    rw [brackets_snoc, hb, Option.toList_some]
  have hlast := h.last
  constructor
  · rw [hsnoc]
    cases hj : brackets j.journal with
    | nil =>
      -- nothing is open yet, so that this is an opening one
      have hnot : j.connection.inTransaction = false := by simpa [hj] using hlast
      simp [hturn, hnot]
    | cons b bs =>
      have hfirst := h.first
      rw [hj] at hfirst
      exact hfirst
  · rw [hsnoc, List.isChain_append]
    refine ⟨h.alternate, List.isChain_singleton _, ?_⟩
    intro b hmem b' hmem'
    have hb' : (if c.inTransaction then Bracket.opening else .closing) = b' := by simpa using hmem'
    rw [Option.mem_def] at hmem
    rw [hmem, Option.some.injEq] at hlast
    rw [← hb', hturn]
    cases b with
    | opening =>
      have hopen : j.connection.inTransaction = true := hlast.2 rfl
      simp [hopen]
    | closing =>
      have hnot : j.connection.inTransaction = false := by simpa using hlast
      simp [hnot]
  · rw [hsnoc, List.getLast?_concat]
    cases c.inTransaction <;> simp
  · exact horderly
  · exact h.inPlace_snoc hx

open Journaled

/-- Another flag and another number of savepoints, as long as the connection is orderly. -/
theorem of_quiet (h : Bracketed j) (hin : c.inTransaction = j.connection.inTransaction)
    (horderly : c.Orderly) : Bracketed { j with connection := c } := by
  have hlast := h.last
  rw [← hin] at hlast
  exact ⟨h.first, h.alternate, hlast, horderly, h.inPlace⟩

/-- A request that is in place and no bracket. -/
theorem ends_note (h : Bracketed j) {r : Request} (hr : r.bracket? = none)
    (hin : r.needsTransaction = true → j.connection.autoCommit = false →
      j.connection.inTransaction = true) (act : EStateM StatementError σ α) :
    Ends (Journaled.note r act) j (fun _ j' => Bracketed j') fun _ j' => Bracketed j' := by
  have hstep : ∀ (done : Bool) (s : σ), Bracketed ⟨{ j.connection with database := s },
      j.journal ++ [⟨r, j.connection.autoCommit, j.connection.inTransaction, done⟩]⟩ := by
    intro done s
    refine h.note ?_ ⟨hin, fun _ hon => ?_⟩ rfl h.orderly
    · unfold Sending.bracket?
      rw [hr, ite_self]
    · -- a transaction would mean that the flag is off
      by_contra hopen
      have hoff : j.connection.autoCommit = false := h.orderly (by simpa using hopen)
      rw [hoff] at hon
      cases hon
  rw [Journaled.ends_note, Connection.ends_onDatabase]
  cases act j.connection.database with
  | ok a s => exact hstep true s
  | error e s => exact hstep false s

variable [Database σ]

/-- A connection whose flag is off has a transaction open behind the `BEGIN` that may be sent. -/
theorem ends_ensureTransaction (h : Bracketed j) :
    Ends ensureTransaction j
      (fun _ j' => Bracketed j' ∧
        (j'.connection.autoCommit = false → j'.connection.inTransaction = true))
      fun _ j' => Bracketed j' := by
  simp only [ensureTransaction, ends_bind, ends_get, ends_ite, ends_pure, ends_discard]
  by_cases hneed : (!j.connection.autoCommit && !j.connection.inTransaction) = true
  · rw [if_pos hneed]
    simp only [Bool.and_eq_true, Bool.not_eq_true'] at hneed
    obtain ⟨hoff, hnot⟩ := hneed
    rw [send, Journaled.ends_note, Connection.ends_onDatabase]
    cases Database.execute Request.begin j.connection.database with
    | error e s => exact h.note rfl (Sending.inPlace_of_bracket rfl) rfl h.orderly
    | ok n s =>
      have hopened : Bracketed ⟨{ j.connection with database := s, inTransaction := true },
          j.journal ++ [⟨.begin, j.connection.autoCommit, j.connection.inTransaction, true⟩]⟩ := by
        refine h.turn rfl (Sending.inPlace_of_bracket rfl) ?_ fun _ => hoff
        simp [hnot]
      exact ⟨hopened, fun _ => rfl⟩
  · rw [if_neg hneed]
    refine ⟨h, fun hoff => ?_⟩
    simpa [hoff] using hneed

/-- Behind a transaction that has been ended none is open. -/
theorem ends_endTransaction (h : Bracketed j) {r : Request} (hr : r.bracket? = some .closing) :
    Ends (endTransaction r) j
      (fun _ j' => Bracketed j' ∧ j'.connection.inTransaction = false)
      fun _ j' => Bracketed j' := by
  simp only [endTransaction, ends_bind, ends_get, ends_ite, ends_pure, ends_discard]
  by_cases hopen : j.connection.inTransaction = true
  · rw [if_pos hopen, send, Journaled.ends_note, Connection.ends_onDatabase]
    cases Database.execute r j.connection.database with
    | error e s => exact h.note rfl (Sending.inPlace_of_bracket hr) rfl h.orderly
    | ok n s =>
      have hclosed : Bracketed ⟨{ j.connection with database := s, inTransaction := false },
          j.journal ++ [⟨r, j.connection.autoCommit, j.connection.inTransaction, true⟩]⟩ := by
        refine h.turn hr (Sending.inPlace_of_bracket hr) ?_ (Connection.orderly_of_ended rfl)
        simp [hopen]
      exact ⟨hclosed, rfl⟩
  · rw [if_neg hopen]
    exact ⟨h, by simpa using hopen⟩

theorem kept_endTransaction {r : Request} (hr : r.bracket? = some .closing) :
    Kept (Bracketed (σ := σ)) (endTransaction r) :=
  fun _ h => (h.ends_endTransaction hr).mono (fun _ _ h' => h'.1) fun _ _ h' => h'

/-- A request about savepoints that are there already. -/
theorem kept_send {r : Request} (hr : r.bracket? = none) (hfree : r.needsTransaction = false) :
    Kept (Bracketed (σ := σ)) (discard (send r)) := by
  intro j h
  rw [ends_discard]
  refine h.ends_note hr (fun hneeds => ?_) _
  rw [hfree] at hneeds
  cases hneeds

/-- A text of the caller's. -/
theorem kept_text (sql : String) (act : EStateM StatementError σ α) :
    Kept Bracketed (do ensureTransaction; Journaled.note (.statement sql) act) := by
  intro j h
  rw [ends_bind]
  refine h.ends_ensureTransaction.mono (fun _ j₁ h₁ => ?_) fun _ _ h₁ => h₁
  exact h₁.1.ends_note rfl (fun _ => h₁.2) act

theorem kept_setAutoCommit (on : Bool) :
    Kept Bracketed (Delegate.setAutoCommit (δ := Journaled σ) on) := by
  intro j h
  simp only [Delegate.setAutoCommit, ends_bind, ends_ite, ends_quietly, ends_modify]
  cases on with
  | true =>
    refine (h.ends_endTransaction rfl).mono (fun _ j' h' => ?_) fun _ _ h' => h'
    obtain ⟨h', hnot⟩ := h'
    exact h'.of_quiet rfl (Connection.orderly_of_ended hnot)
  | false => exact h.of_quiet rfl fun _ => rfl

theorem kept_setSavepoint (name : Option String) :
    Kept Bracketed (Delegate.setSavepoint (δ := Journaled σ) name) := by
  refine kept_bind (kept_refuseInAutoCommit _) fun _ => ?_
  refine kept_bind (kept_refuseBadName name) fun _ => ?_
  intro j h
  simp only [ends_bind, ends_quietly, ends_modify, ends_get, ends_discard, ends_pure]
  -- the number of the savepoint is taken between the `BEGIN` and the savepoint itself
  refine h.ends_ensureTransaction.mono (fun _ j₁ h₁ => ?_) fun _ _ h₁ => h₁
  obtain ⟨h₁, hin⟩ := h₁
  have hnumbered : Bracketed { j₁ with connection :=
      { j₁.connection with savepoints := j₁.connection.savepoints + 1 } } :=
    h₁.of_quiet rfl h₁.orderly
  have hmark : ∀ name : String, (Request.savepoint name).bracket? = none := fun _ => rfl
  exact hnumbered.ends_note (hmark _) (fun _ => hin) _

/-- Every method keeps the journal bracketed. -/
theorem invariant : Invariant (Bracketed (σ := σ)) where
  autoCommit := Kept.simulates fun _ h => h
  setAutoCommit on := Kept.simulates (kept_setAutoCommit on)
  commit := Kept.simulates
    (kept_bind (kept_refuseInAutoCommit _) fun _ => kept_endTransaction rfl)
  rollback := Kept.simulates
    (kept_bind (kept_refuseInAutoCommit _) fun _ => kept_endTransaction rfl)
  setSavepoint name := Kept.simulates (kept_setSavepoint name)
  rollbackTo _ := Kept.simulates
    (kept_bind (kept_refuseInAutoCommit _) fun _ => kept_send rfl rfl)
  release _ := Kept.simulates (kept_send rfl rfl)
  execute sql := Kept.simulates (kept_text sql _)
  query sql := Kept.simulates (kept_text sql _)

omit [Database σ] in
/-- A connection as it is opened has nothing to bracket. -/
theorem of_isFresh (h : j.IsFresh) : Bracketed j := by
  obtain ⟨hfresh, hjournal⟩ := h
  have hnot := hfresh.inTransaction
  have hnone : brackets j.journal = [] := by
    rw [hjournal]
    rfl
  constructor
  · simp [hnone]
  · rw [hnone]
    exact .nil
  · simp [hnone, hnot]
  · exact Connection.orderly_of_ended hnot
  · simp [hjournal]

end Bracketed

variable [Database σ]

/-- **A connection brackets what it sends.** Take a connection at any point of its life, bare or under
a controller, over a database that carries out or refuses what it likes. There is a journal of that
life, and every such journal is bracketed: the successful `BEGIN`s and the successful `COMMIT`s and
`ROLLBACK`s of its own alternate, beginning with a `BEGIN`; it has a transaction open exactly if the
last of them was a `BEGIN`, and then its flag is off; while the flag was off, texts and new savepoints
were sent within a transaction, and while it was on, texts were sent outside of one. Under a
controller an open transaction means that the caller's mode is off as well. -/
theorem brackets_alternate {c : Connection σ} (hc : Arises Connection.IsFresh c) :
    (∃ j : Journaled σ, Arises Journaled.IsFresh j ∧ j.connection = c) ∧
      ∀ j : Journaled σ, Arises Journaled.IsFresh j → j.connection = c →
        Bracketed j ∧ ∀ w : Controller (Journaled σ), Reachable j w → Bracketed w.delegate ∧
          (w.delegate.connection.inTransaction = true → w.autoCommit = false) := by
  constructor
  · refine Arises.related (Journaled.journaled_sim) (fun d hd => ?_) hc
    exact ⟨⟨d, []⟩, ⟨hd, rfl⟩, rfl⟩
  · rintro j hj -
    have hbracketed : Bracketed j := Bracketed.invariant.arises (fun _ => Bracketed.of_isFresh) hj
    refine ⟨hbracketed, fun w hw => ?_⟩
    have hbelow := Bracketed.invariant.reachable hbracketed hw
    refine ⟨hbelow, fun hopen => ?_⟩
    -- the same controller over the connection alone has its flag in line with the caller's mode
    obtain ⟨w', hw', habove⟩ := Reachable.related Journaled.journaled_sim.symm rfl hw
    have hflag : w'.autoCommit = true → w'.delegate.autoCommit = true := hw'.sound.on_of_caller
    have hoff := hbelow.orderly hopen
    rw [habove.autoCommit, ← habove.delegate, hoff] at hflag
    simpa using hflag

/-- Two writes over a store, the first of them committed, send three brackets. -/
theorem brackets_of_two_writes :
    let calls : List Call := [.setAutoCommit false, .execute "CREATE TABLE t (a INTEGER)", .commit,
      .setSavepoint none, .execute "INSERT INTO t VALUES (1)", .execute "INSERT INTO u VALUES (1)"]
    let j : Journaled Store := (run Delegate.perform calls ⟨{ database := {}, kind := .sqlite }, []⟩).2
    Arises Connection.IsFresh j.connection ∧ Arises Journaled.IsFresh j ∧
      brackets j.journal = [.opening, .closing, .opening] ∧
      j.journal.map (·.done) = [true, true, true, true, true, true, false] ∧ Bracketed j := by
  intro calls j
  have hj : Arises Journaled.IsFresh j := .run calls (.fresh ⟨⟨rfl, rfl, rfl⟩, rfl⟩)
  have hc : Arises Connection.IsFresh j.connection := by
    have hlife : ∃ c, Arises Connection.IsFresh c ∧ Journaled.Holds j c :=
      Arises.related Journaled.journaled_sim.symm (fun i hi => ⟨i.connection, hi.connection, rfl⟩) hj
    obtain ⟨_, hc, rfl⟩ := hlife
    exact hc
  exact ⟨hc, hj, by decide +kernel, by decide +kernel, ((brackets_alternate hc).2 j hj rfl).1⟩

end DeferredTx.Session
