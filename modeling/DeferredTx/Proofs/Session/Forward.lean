import DeferredTx.Proofs.Session.Watch

/-!
# The flag that a forwarded text meets

Only four operations pass a SQL text on to the delegate, and each does so last, behind the suspension
of auto-commit where the text needs one.

* `Op.text?`: the text of an operation.
* `PassedOn`: a log that ends in a text, behind nothing but successful calls without one.
* `ends_perform_text`, `quiet_perform`: the logs of the operations with and without a text.
* `forwarded_flag`: **the delegate's flag when a text arrives**, for every operation in every
  reachable state.
-/

namespace DeferredTx.Session

open LawfulDelegate (flag)

variable {δ α : Type} [Delegate δ] [LawfulDelegate δ]

/-- The SQL text that an operation is asked to pass on. -/
def Op.text? : Op → Option String
  | .call (.execute sql) | .call (.query sql) | .preparedExecute sql | .preparedQuery sql => some sql
  | _ => none

/-- An operation suspends auto-commit for every write that it passes on. -/
theorem suspends_of_write {op : Op} {sql : String} (hop : op.text? = some sql)
    (hwrite : Statement.isWrite sql = true) : op.suspends = true := by
  unfold Op.text? at hop
  split at hop
  case h_5 => cases hop
  all_goals
    obtain rfl := Option.some.inj hop
  · exact hwrite
  · exact hwrite
  · rfl
  · exact hwrite

/-- The last call of a log passes the text `sql` on to a delegate with the flag `on`, and in front of
it there are successful calls without a text. -/
def PassedOn (sql : String) (on : Bool) (failure : Option DbError) (log : List Exchange) : Prop :=
  ∃ front call, call.text? = some sql ∧ Wordless front ∧ Clean front ∧
    log = front ++ [⟨call, on, failure⟩]

namespace PassedOn

variable {sql : String} {on : Bool} {failure : Option DbError} {log : List Exchange}

/-- The one call with a text is the last. -/
theorem eq_of_mem (h : PassedOn sql on failure log) {x : Exchange} (hx : x ∈ log) {t : String}
    (ht : x.text? = some t) : t = sql ∧ x.flag = on := by
  obtain ⟨front, call, hcall, hwordless, -, rfl⟩ := h
  rcases List.mem_append.1 hx with hf | hl
  · rw [hwordless x hf] at ht
    exact absurd ht nofun
  · obtain rfl := List.mem_singleton.1 hl
    exact ⟨Option.some.inj (ht.symm.trans hcall), rfl⟩

/-- No call but the one with the text has failed. -/
theorem text_of_failure (h : PassedOn sql on failure log) {x : Exchange} (hx : x ∈ log)
    (hfail : x.failure ≠ none) : x.text? = some sql := by
  obtain ⟨front, call, hcall, -, hclean, rfl⟩ := h
  rcases List.mem_append.1 hx with hf | hl
  · exact absurd (hclean x hf) hfail
  · obtain rfl := List.mem_singleton.1 hl
    exact hcall

theorem texts (h : PassedOn sql on failure log) : log.filterMap Exchange.text? = [sql] := by
  obtain ⟨front, call, hcall, hwordless, -, rfl⟩ := h
  have hfront : front.filterMap Exchange.text? = [] := List.filterMap_eq_nil_iff.2 hwordless
  simp [hfront, Exchange.text?, hcall]

end PassedOn

theorem Wordless.texts {log : List Exchange} (h : Wordless log) :
    log.filterMap Exchange.text? = [] :=
  List.filterMap_eq_nil_iff.2 h

/-- A text that is passed on behind a suspension. -/
theorem ends_forward_watched {act : Action δ α} {call : DelegateCall} {text sql : String}
    (hcall : call.text? = some text) (always : Bool) (c : Controller δ) :
    Ends (do Controller.beforeExecute sql always
             Controller.onDelegate (Watched.watch call act)) c.watch
      (fun _ c' => PassedOn text
        (c.modes.suspended (always || Statement.isWrite sql)).delegate none c'.delegate.log)
      fun e c' => Wordless c'.delegate.log ∨ PassedOn text
        (c.modes.suspended (always || Statement.isWrite sql)).delegate (some e) c'.delegate.log := by
  have hquiet := (quiet_beforeExecute sql always).ends c
  rw [ends_bind]
  refine (hquiet.and (Controller.ends_beforeExecute sql always c.watch)).mono ?_ fun _ _ h => Or.inl h.1
  rintro - c₁ ⟨⟨hwordless, hclean⟩, hm⟩
  -- the flag is read off the modes behind the suspension
  have hflag : flag c₁.delegate.delegate =
      (c.modes.suspended (always || Statement.isWrite sql)).delegate :=
    congrArg Modes.delegate hm
  rw [ends_onDelegate, Watched.ends_watch, hflag]
  unfold Ends
  split
  · exact ⟨_, call, hcall, hwordless, hclean, rfl⟩
  · exact Or.inr ⟨_, call, hcall, hwordless, hclean, rfl⟩

/-- What an operation with a text makes of the log. -/
theorem ends_perform_text {op : Op} {sql : String} (hop : op.text? = some sql) (c : Controller δ) :
    Ends (Controller.perform op) c.watch
      (fun _ c' => PassedOn sql (c.modes.suspended op.suspends).delegate none c'.delegate.log)
      fun e c' => Wordless c'.delegate.log ∨
        PassedOn sql (c.modes.suspended op.suspends).delegate (some e) c'.delegate.log := by
  unfold Op.text? at hop
  split at hop
  case h_5 => cases hop
  all_goals
    obtain rfl := Option.some.inj hop
    simp only [Controller.perform, ends_bind, ends_pure]
  · exact ends_forward_watched rfl false c
  · exact ends_forward_watched rfl false c
  · exact ends_forward_watched rfl true c
  · exact ends_forward_watched rfl false c

/-- An operation without a text passes none on. -/
theorem quiet_perform {op : Op} (hop : op.text? = none) : Quiet (δ := δ) (Controller.perform op) := by
  cases op with
  | call k =>
    cases k with
    | setAutoCommit on => exact quiet_bind (quiet_setAutoCommit on) fun _ => quiet_pure _
    | commit =>
      have hcommit : Quiet (δ := δ) (Controller.onDelegate Delegate.commit) := quiet_watch rfl _
      exact quiet_bind (quiet_endTransaction _ hcommit) fun _ => quiet_pure _
    | rollback =>
      have hrollback : Quiet (δ := δ) (Controller.onDelegate Delegate.rollback) := quiet_watch rfl _
      exact quiet_bind (quiet_endTransaction _ hrollback) fun _ => quiet_pure _
    | setSavepoint name => exact quiet_bind (quiet_setSavepoint name) fun _ => quiet_pure _
    | rollbackTo s =>
      have hback : Quiet (δ := δ) (Controller.onDelegate (Delegate.rollbackTo s)) := quiet_watch rfl _
      refine quiet_bind (quiet_bind (quiet_refuseInAutoCommit _) fun _ => ?_) fun _ => quiet_pure _
      exact quiet_unlessAutoCommit hback
    | release s =>
      have hrelease : Quiet (δ := δ) (Controller.onDelegate (Delegate.release s)) := quiet_watch rfl _
      exact quiet_bind (quiet_unlessAutoCommit hrelease) fun _ => quiet_pure _
    | execute sql => cases hop
    | query sql => cases hop
  | setSmartCommit on => exact quiet_bind (quiet_setSmartCommit on) fun _ => quiet_pure _
  | beforeExecute sql always =>
    exact quiet_bind (quiet_beforeExecute sql always) fun _ => quiet_pure _
  | preparedExecute sql => cases hop
  | preparedQuery sql => cases hop

/-- The log of any operation: no text, or the operation's own text and nothing behind it. -/
theorem calls_cases (op : Op) (c : Controller δ) :
    Wordless (c.calls op) ∨ ∃ sql failure, op.text? = some sql ∧
      PassedOn sql (c.modes.suspended op.suspends).delegate failure (c.calls op) := by
  cases hop : op.text? with
  | none =>
    have h := (quiet_perform hop).ends c
    exact Or.inl (Ends.state (P := fun c' => Wordless c'.delegate.log)
      (h.mono (fun _ _ h => h.1) fun _ _ h => h))
  | some sql =>
    refine Ends.state (P := fun c' => Wordless c'.delegate.log ∨ ∃ t failure, some sql = some t ∧
      PassedOn t (c.modes.suspended op.suspends).delegate failure c'.delegate.log)
      ((ends_perform_text hop c).mono ?_ ?_)
    · exact fun _ _ h => Or.inr ⟨sql, none, rfl, h⟩
    · rintro e _ (h | h)
      · exact Or.inl h
      · exact Or.inr ⟨sql, some e, rfl, h⟩

/-- A successful operation has passed its text on, once. -/
theorem texts_of_ok {op : Op} {c : Controller δ} {r : Reply} {c' : Controller δ}
    (h : Controller.perform op c = .ok r c') :
    (c.calls op).filterMap Exchange.text? = op.text?.toList := by
  have hw := Controller.perform_watch op c
  rw [h] at hw
  unfold Controller.calls
  generalize hr : Controller.perform op c.watch = result at hw
  cases hw with
  | ok _ _ =>
    cases hop : op.text? with
    | none => exact (((quiet_perform hop).ends c).of_ok hr).1.texts
    | some sql => exact ((ends_perform_text hop c).of_ok hr).texts

/-- **The flag that a text meets.** Whatever operation is performed in a reachable state, a text that
reaches the delegate is the operation's own and meets a delegate that is in auto-commit exactly if
the caller is, or if it was so before and there is no need to suspend it. So neither a write nor a
prepared execution arrives in auto-commit while the caller's mode is off, nothing arrives outside
auto-commit while it is on, and nothing arrives if a call in front of it has failed, such as the
suspension. An operation that succeeds has passed its text on exactly once. -/
theorem forwarded_flag {d : δ} {c : Controller δ} (h : Reachable d c) (op : Op) :
    (∀ x ∈ c.calls op, ∀ sql, x.text? = some sql → op.text? = some sql ∧
      x.flag = (c.autoCommit || (flag c.delegate && !op.suspends))) ∧
    (c.autoCommit = false → op.suspends = true →
      ∀ x ∈ c.calls op, x.text? ≠ none → x.flag = false) ∧
    (c.autoCommit = true → ∀ x ∈ c.calls op, x.text? ≠ none → x.flag = true) ∧
    (∀ x ∈ c.calls op, x.text? = none → x.failure ≠ none → ∀ y ∈ c.calls op, y.text? = none) ∧
    ∀ r c', Controller.perform op c = .ok r c' →
      (c.calls op).filterMap Exchange.text? = op.text?.toList := by
  have hmeets : ∀ x ∈ c.calls op, ∀ sql, x.text? = some sql → op.text? = some sql ∧
      x.flag = (c.autoCommit || (flag c.delegate && !op.suspends)) := by
    intro x hx sql hsql
    rcases calls_cases op c with hw | ⟨t, failure, ht, hp⟩
    · exact absurd ((hw x hx).symm.trans hsql) nofun
    · obtain ⟨rfl, hflag⟩ := hp.eq_of_mem hx hsql
      refine ⟨ht, hflag.trans ?_⟩
      -- a caller in auto-commit has the delegate in auto-commit
      have hon : c.autoCommit = true → flag c.delegate = true := h.sound.on_of_caller
      show (flag c.delegate && (c.autoCommit || !op.suspends)) = _
      cases hc : c.autoCommit with
      | true => simp [hon hc]
      | false => simp
  have hmeets' : ∀ x ∈ c.calls op, x.text? ≠ none →
      x.flag = (c.autoCommit || (flag c.delegate && !op.suspends)) := by
    intro x hx hne
    obtain ⟨sql, hsql⟩ := Option.ne_none_iff_exists'.1 hne
    exact (hmeets x hx sql hsql).2
  refine ⟨hmeets, ?_, ?_, ?_, fun _ _ => texts_of_ok⟩
  · intro hc hs x hx hne
    rw [hmeets' x hx hne, hc, hs]
    simp
  · intro hc x hx hne
    rw [hmeets' x hx hne, hc]
    simp
  · intro x hx htext hfail
    rcases calls_cases op c with hw | ⟨t, failure, -, hp⟩
    · exact hw
    · -- the failed call would be the one with the text
      exact absurd (htext.symm.trans (hp.text_of_failure hx hfail)) nofun

/-- A recorder gets the first write outside auto-commit. -/
theorem first_write_forwarded_off :
    let c : Controller Recorder :=
      (run Controller.perform [.call (.setAutoCommit false)] ⟨{ autoCommit := true }, true, true⟩).2
    let op : Op := .call (.execute "DELETE FROM t")
    Reachable { autoCommit := true } c ∧ c.autoCommit = false ∧ flag c.delegate = true ∧
      op.suspends = true ∧ (∃ x ∈ c.calls op, x.text? ≠ none) ∧
      ∀ x ∈ c.calls op, x.text? ≠ none → x.flag = false := by
  intro c op
  have hr : Reachable { autoCommit := true } c := Reachable.run _ (.wrap rfl)
  have hs : op.suspends = true := by decide +kernel
  exact ⟨hr, rfl, rfl, hs, by decide +kernel, (forwarded_flag hr op).2.1 rfl hs⟩

end DeferredTx.Session
