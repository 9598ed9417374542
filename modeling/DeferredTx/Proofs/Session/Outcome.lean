import DeferredTx.Session.Connection
import DeferredTx.Session.Controller

/-!
# Outcomes of actions

An action either succeeds with a value or fails with an error, and leaves a state behind either way.

* `Ends`: what holds behind an action, told apart by success and failure.
* `ends_bind`, `ends_onDelegate`, …: `Ends` of an action from its parts, so that `simp` reduces a
  program to the calls that it makes.
* `bind_eq_ok`, `mapM_cons_eq_ok`: an action that succeeds, taken apart.
* `Kept`, `Keeps`: a property of the state is kept by an action, and a view of the state is the same
  behind it, whether it succeeds or fails.
-/

namespace DeferredTx.Session

variable {ε σ τ α β : Type}

/-- The state that a result leaves behind. -/
def stateOf : EStateM.Result ε σ α → σ
  | .ok _ s => s
  | .error _ s => s

/-- What an action answers, apart from the state that it leaves behind. -/
def answerOf : EStateM.Result ε σ α → Except ε α
  | .ok a _ => .ok a
  | .error e _ => .error e

/-- Behind `act` from `s`, either it has succeeded and `Q` holds, or it has failed and `R` holds. -/
def Ends (act : EStateM ε σ α) (s : σ) (Q : α → σ → Prop) (R : ε → σ → Prop) : Prop :=
  match act s with
  | .ok a s' => Q a s'
  | .error e s' => R e s'

section Rules

variable {act : EStateM ε σ α} {s : σ} {Q Q' : α → σ → Prop} {R R' : ε → σ → Prop}

theorem Ends.of_ok {a : α} {s' : σ} (h : Ends act s Q R) (hr : act s = .ok a s') : Q a s' := by
  simpa only [Ends, hr] using h

theorem Ends.of_error {e : ε} {s' : σ} (h : Ends act s Q R) (hr : act s = .error e s') :
    R e s' := by
  simpa only [Ends, hr] using h

/-- Weaker conditions hold as well. -/
theorem Ends.mono (h : Ends act s Q R) (hQ : ∀ a s', Q a s' → Q' a s')
    (hR : ∀ e s', R e s' → R' e s') : Ends act s Q' R' := by
  unfold Ends at h ⊢
  cases hr : act s with
  | ok a s' => rw [hr] at h; exact hQ a s' h
  | error e s' => rw [hr] at h; exact hR e s' h

theorem Ends.and (h : Ends act s Q R) (h' : Ends act s Q' R') :
    Ends act s (fun a s' => Q a s' ∧ Q' a s') (fun e s' => R e s' ∧ R' e s') := by
  unfold Ends at h h' ⊢
  cases hr : act s with
  | ok a s' => rw [hr] at h h'; exact ⟨h, h'⟩
  | error e s' => rw [hr] at h h'; exact ⟨h, h'⟩

/-- A condition on the state alone holds of the state left behind. -/
theorem Ends.state {P : σ → Prop} (h : Ends act s (fun _ => P) fun _ => P) : P (stateOf (act s)) := by
  unfold Ends at h
  cases hr : act s with
  | ok a s' => rw [hr] at h; exact h
  | error e s' => rw [hr] at h; exact h

/-- An action that cannot fail succeeds. -/
theorem Ends.exists_ok (h : Ends act s Q fun _ _ => False) : ∃ a s', act s = .ok a s' ∧ Q a s' := by
  unfold Ends at h
  cases hr : act s with
  | ok a s' =>
    rw [hr] at h
    exact ⟨a, s', rfl, h⟩
  | error e s' =>
    rw [hr] at h
    exact h.elim

/-- An action that cannot succeed fails. -/
theorem Ends.exists_error (h : Ends act s (fun _ _ => False) R) :
    ∃ e s', act s = .error e s' ∧ R e s' := by
  unfold Ends at h
  cases hr : act s with
  | ok a s' =>
    rw [hr] at h
    exact h.elim
  | error e s' =>
    rw [hr] at h
    exact ⟨e, s', rfl, h⟩

/-- An action goes on behind a success. -/
theorem bind_of_ok {f : α → EStateM ε σ β} {a : α} {s' : σ} (h : act s = .ok a s') :
    (act >>= f) s = f a s' := by
  simp only [bind, EStateM.bind, h]

/-- A failure is the end. -/
theorem bind_of_error {f : α → EStateM ε σ β} {e : ε} {s' : σ} (h : act s = .error e s') :
    (act >>= f) s = .error e s' := by
  simp only [bind, EStateM.bind, h]

@[simp]
theorem ends_pure (a : α) : Ends (pure a : EStateM ε σ α) s Q R ↔ Q a s := Iff.rfl

@[simp]
theorem ends_bind (act : EStateM ε σ α) (f : α → EStateM ε σ β) {Q : β → σ → Prop} :
    Ends (act >>= f) s Q R ↔ Ends act s (fun a s' => Ends (f a) s' Q R) R := by
  simp only [Ends, bind, EStateM.bind]
  cases act s <;> rfl

/-- Where nothing is asked of failures, the last part alone decides. -/
theorem ends_bind_last (act : EStateM ε σ α) {f : α → EStateM ε σ β} {Q : β → σ → Prop}
    (h : ∀ a s', Ends (f a) s' Q fun _ _ => True) : Ends (act >>= f) s Q fun _ _ => True := by
  rw [ends_bind]
  unfold Ends
  cases act s with
  | ok a s' => exact h a s'
  | error e s' => trivial

@[simp]
theorem ends_map (f : α → β) (act : EStateM ε σ α) {Q : β → σ → Prop} :
    Ends (f <$> act) s Q R ↔ Ends act s (fun a s' => Q (f a) s') R := by
  simp only [Ends, Functor.map, EStateM.map]
  cases act s <;> rfl

@[simp]
theorem ends_discard (act : EStateM ε σ α) {Q : PUnit → σ → Prop} :
    Ends (discard act) s Q R ↔ Ends act s (fun _ => Q ⟨⟩) R := by
  simp only [Ends, discard, Functor.mapConst, Function.comp_apply, EStateM.map]
  cases act s <;> rfl

@[simp]
theorem ends_get {Q : σ → σ → Prop} : Ends (get : EStateM ε σ σ) s Q R ↔ Q s s := Iff.rfl

@[simp]
theorem ends_modify (f : σ → σ) {Q : PUnit → σ → Prop} :
    Ends (modify f : EStateM ε σ PUnit) s Q R ↔ Q ⟨⟩ (f s) := Iff.rfl

@[simp]
theorem ends_throw (e : ε) : Ends (throw e : EStateM ε σ α) s Q R ↔ R e s := Iff.rfl

@[simp]
theorem ends_ite (p : Prop) [Decidable p] (yes no : EStateM ε σ α) :
    Ends (if p then yes else no) s Q R ↔ if p then Ends yes s Q R else Ends no s Q R := by
  split <;> rfl

end Rules

section Succeeds

variable {f : α → EStateM ε σ β} {act : EStateM ε σ α} {a : α} {as more : List α} {b b' : β}
  {bs : List β} {s s' : σ}

theorem bind_eq_ok : (act >>= f) s = .ok b s' ↔ ∃ a t, act s = .ok a t ∧ f a t = .ok b s' := by
  simp only [bind, EStateM.bind]
  cases act s with
  | ok a t =>
    refine ⟨fun h => ⟨a, t, rfl, h⟩, ?_⟩
    rintro ⟨_, _, ⟨⟩, h⟩
    exact h
  | error e t =>
    refine iff_of_false nofun ?_
    rintro ⟨_, _, ⟨⟩, -⟩

theorem pure_eq_ok : (pure b : EStateM ε σ β) s = .ok b' s' ↔ b' = b ∧ s' = s := by
  constructor
  · rintro ⟨⟩
    exact ⟨rfl, rfl⟩
  · rintro ⟨rfl, rfl⟩
    rfl

theorem exists_ok_of_answer {r : EStateM.Result ε σ α} {g : α → β}
    (h : (answerOf r).toOption.map g = some b) : ∃ a s, r = .ok a s ∧ g a = b := by
  cases r with
  | ok a s => exact ⟨a, s, rfl, Option.some.inj h⟩
  | error e s => cases h

theorem mapM_cons_eq_ok : (a :: as).mapM f s = .ok bs s' ↔
    ∃ b t rest, f a s = .ok b t ∧ as.mapM f t = .ok rest s' ∧ bs = b :: rest := by
  simp only [List.mapM_cons, bind_eq_ok, pure_eq_ok]
  constructor
  · rintro ⟨b, t, ha, rest, _, has, rfl, rfl⟩
    exact ⟨b, t, rest, ha, has, rfl⟩
  · rintro ⟨b, t, rest, ha, has, rfl⟩
    exact ⟨b, t, ha, rest, s', has, rfl, rfl⟩

/-- Actions that succeed one after another, cut in two. -/
theorem mapM_append_eq_ok (h : (as ++ more).mapM f s = .ok bs s') :
    ∃ front t back, as.mapM f s = .ok front t ∧ more.mapM f t = .ok back s' ∧
      bs = front ++ back := by
  induction as generalizing s bs with
  | nil => exact ⟨[], s, bs, rfl, h, rfl⟩
  | cons a as ih =>
    obtain ⟨b, t, rest, ha, has, rfl⟩ := mapM_cons_eq_ok.1 h
    obtain ⟨front, u, back, hfront, hback, rfl⟩ := ih has
    exact ⟨b :: front, u, back, mapM_cons_eq_ok.2 ⟨b, t, front, ha, hfront, rfl⟩, hback, rfl⟩

end Succeeds

/-- What an action on the delegate does to the controller above it. -/
@[simp]
theorem ends_onDelegate (act : Action σ α) (c : Controller σ) {Q : α → Controller σ → Prop}
    {R : DbError → Controller σ → Prop} :
    Ends (Controller.onDelegate act) c Q R ↔
      Ends act c.delegate (fun a d => Q a { c with delegate := d })
        fun e d => R e { c with delegate := d } := by
  simp only [Ends, Controller.onDelegate]
  cases act c.delegate <;> rfl

section Kept

variable {P : σ → Prop}

/-- An action that keeps a property of the state, whether it succeeds or fails. -/
def Kept (P : σ → Prop) (act : EStateM ε σ α) : Prop :=
  ∀ s, P s → Ends act s (fun _ => P) fun _ => P

theorem kept_of_stateOf {act : EStateM ε σ α} (h : ∀ s, P s → P (stateOf (act s))) : Kept P act := by
  intro s hs
  have hs' := h s hs
  unfold Ends
  cases hr : act s <;> rw [hr] at hs' <;> exact hs'

theorem kept_pure (a : α) : Kept P (pure a : EStateM ε σ α) :=
  fun _ h => h

theorem kept_bind {act : EStateM ε σ α} {f : α → EStateM ε σ β} (h : Kept P act)
    (hf : ∀ a, Kept P (f a)) : Kept P (act >>= f) := by
  intro s hs
  rw [ends_bind]
  exact (h s hs).mono (fun a s' hs' => hf a s' hs') fun _ _ hs' => hs'

theorem kept_foldlM {ι : Type} {f : β → ι → EStateM ε σ β} :
    ∀ (l : List ι) (b : β), (∀ i ∈ l, ∀ b', Kept P (f b' i)) → Kept P (l.foldlM f b)
  | [], b, _ => kept_pure b
  | i :: l, b, h => by
    rw [List.foldlM_cons]
    exact kept_bind (h i List.mem_cons_self b) fun b' =>
      kept_foldlM l b' fun j hj => h j (List.mem_cons_of_mem _ hj)

theorem kept_mapM {ι : Type} {f : ι → EStateM ε σ α} :
    ∀ l : List ι, (∀ i ∈ l, Kept P (f i)) → Kept P (l.mapM f)
  | [], _ => by
    rw [List.mapM_nil]
    exact kept_pure []
  | i :: l, h => by
    rw [List.mapM_cons]
    refine kept_bind (h i List.mem_cons_self) fun a => ?_
    exact kept_bind (kept_mapM l fun j hj => h j (List.mem_cons_of_mem _ hj)) fun as => kept_pure _

end Kept

/-- A view of the state is the same behind an action, whether it succeeds or fails. -/
def Keeps (view : σ → τ) (act : EStateM ε σ α) : Prop :=
  ∀ s, Ends act s (fun _ s' => view s' = view s) fun _ s' => view s' = view s

/-- Whatever the view shows, it goes on to show that. -/
theorem keeps_iff_kept {view : σ → τ} {act : EStateM ε σ α} :
    Keeps view act ↔ ∀ v, Kept (fun s => view s = v) act := by
  constructor
  · exact fun h v s hs => (h s).mono (fun _ _ h' => h'.trans hs) fun _ _ h' => h'.trans hs
  · exact fun h s => h _ s rfl

theorem keeps_bind {view : σ → τ} {act : EStateM ε σ α} {f : α → EStateM ε σ β} (h : Keeps view act)
    (hf : ∀ a, Keeps view (f a)) : Keeps view (act >>= f) :=
  keeps_iff_kept.2 fun v => kept_bind (keeps_iff_kept.1 h v) fun a => keeps_iff_kept.1 (hf a) v

end DeferredTx.Session
