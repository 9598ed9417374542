import DeferredTx.Proofs.Settings.Sources
import DeferredTx.Proofs.Shell.Words

/-!
# The grammar of meta commands

What a line stands for depends on its words alone, and of these on the first two. The grammar says which
words spell a command, and which ones are refused and why. It does not say how either is found out.

* `Command.Takes`, `Command.Spells`: the arguments of a command, and the words that spell one.
* `Command.Refuses`: the words that spell none.
* `Command.spells_or_refuses`: there are no other words.
* `Command.written`, `Command.lineWords_written`: a line with a name and an argument, and its words.
* `Command.read_iff_spelled`: **lines are read by the grammar**, and a command is read back from its
  written form.
-/

namespace DeferredTx

open Text

/-- One of the words for a switch, in any case. -/
def Switch.IsWordFor (on : Bool) (text : String) : Prop :=
  ∃ w ∈ wordsFor on, sameName text w = true

namespace Shell

open Statement (trim_of_solid)

section Switches

variable {on : Bool} {w : String}

/-- Among words, a switch is one of the words for it. -/
theorem read_eq_ok_iff_of_isWord (hw : IsWord w) : Switch.read w = .ok on ↔ Switch.IsWordFor on w := by
  rw [Switch.read_eq_ok_iff]
  constructor
  · rintro ⟨front, word, tail, htext, hfront, htail, hword⟩
    have hnone : ∀ blanks : List Char, blanks ⊆ w.toList → blanks.all isBlank = true → blanks = [] := by
      refine fun blanks hsub hblanks => List.eq_nil_iff_forall_not_mem.2 fun c hc => ?_
      exact absurd ((List.all_eq_true.1 hblanks c hc).symm.trans (hw.2 c (hsub hc))) nofun
    obtain rfl := hnone front (by simp [htext]) hfront
    obtain rfl := hnone tail (by simp [htext]) htail
    rw [List.nil_append, List.append_nil] at htext
    rwa [← htext] at hword
  · rintro ⟨v, hv, hsame⟩
    exact ⟨[], w.toList, [], by simp, rfl, rfl, v, hv, hsame⟩

theorem read_eq_error_of_isWord (hw : IsWord w) (h : ∀ on, ¬Switch.IsWordFor on w) :
    Switch.read w = .error ⟨lower w⟩ := by
  cases hread : Switch.read w with
  | ok on => exact absurd ((read_eq_ok_iff_of_isWord hw).1 hread) (h on)
  | error e =>
    unfold Switch.read at hread
    dsimp only at hread
    split at hread
    · cases hread
    · rw [← Except.error.inj hread, trim_of_solid hw.2]
      rfl

end Switches

namespace Command

section Grammar

variable {c : Command} {line word : String} {arg : Option String} {ws : List String}

/-- The name of a command. -/
def name : Command → String
  | commit => "commit"
  | rollback => "rollback"
  | autoCommit _ => "autocommit"
  | smartCommit _ => "smartcommit"
  | savepoint _ => "savepoint"
  | release _ => "release"
  | rollbackTo _ => "rollback_to"
  | status => "status"

/-- What the argument of a command is, if it needs one. -/
def needs : Command → Option String
  | autoCommit _ | smartCommit _ => some "on or off"
  | release _ | rollbackTo _ => some "a savepoint name"
  | commit | rollback | savepoint _ | status => none

/-- The arguments that a command takes. A switch must be one of the words for it, a name is taken as it
is, and a command that has no argument takes any. -/
inductive Takes : Command → Option String → Prop where
  | commit (arg : Option String) : Takes commit arg
  | rollback (arg : Option String) : Takes rollback arg
  | autoCommit {on : Bool} {word : String} : Switch.IsWordFor on word → Takes (autoCommit on) (some word)
  | smartCommit {on : Bool} {word : String} : Switch.IsWordFor on word → Takes (smartCommit on) (some word)
  | savepoint (name : Option String) : Takes (savepoint name) name
  | release (name : String) : Takes (release name) (some name)
  | rollbackTo (name : String) : Takes (rollbackTo name) (some name)
  | status (arg : Option String) : Takes status arg

/-- The words that spell a command: its name in any case, its argument if there is one, and any further
ones. -/
inductive Spells (c : Command) : List String → Prop where
  | intro {word : String} {more : List String} : sameName word c.name = true → c.Takes more.head? →
    Spells c (word :: more)

/-- The words that spell no command, and why: no command has the name, which is empty if there are no
words, or the argument is missing, or it should be a switch. -/
inductive Refuses : List String → CommandError → Prop where
  | unknown {ws : List String} : (∀ c : Command, sameName (ws.headD "") c.name = false) →
    Refuses ws (.unknown (lower (ws.headD "")))
  | missing {c : Command} {word what : String} : sameName word c.name = true →
    c.needs = some what → Refuses [word] (.missing c.name what)
  | notASwitch {c : Command} {word arg : String} {more : List String} :
    sameName word c.name = true → c.needs = some "on or off" → (∀ on, ¬Switch.IsWordFor on arg) →
    Refuses (word :: arg :: more) (.notASwitch ⟨lower arg⟩)

/-- The names of all commands. -/
def names : List String :=
  ["commit", "rollback", "autocommit", "smartcommit", "savepoint", "release", "rollback_to", "status"]

theorem name_mem (c : Command) : c.name ∈ names := by
  cases c <;> simp [name, names]

theorem fold_name (c : Command) : fold c.name.toList = c.name.toList := by
  have hall : ∀ n ∈ names, fold n.toList = n.toList := by
    decide +kernel
  exact hall _ c.name_mem

theorem isWord_name (c : Command) : IsWord c.name := by
  have hall : ∀ n ∈ names, IsWord n := by
    decide +kernel
  exact hall _ c.name_mem

theorem head_name (c : Command) : c.name.toList.head? ≠ some '\\' := by
  have hall : ∀ n ∈ names, n.toList.head? ≠ some '\\' := by
    decide +kernel
  exact hall _ c.name_mem

theorem sameName_name_iff : sameName word c.name = true ↔ lower word = c.name := by
  rw [sameName, sameFold, beq_iff_eq, fold_name, lower, ← String.toList_inj, String.toList_ofList]

theorem switch_eq (n word : String) : switch n (some word) = (Switch.read word).mapError .notASwitch := by
  simp only [switch, required, bind, Except.bind]
  cases Switch.read word <;> rfl

/-- A command is read where its name and its argument have been found. -/
theorem read_of_takes (hwords : words line = (c.name, arg)) (harg : ∀ a ∈ arg, IsWord a)
    (htakes : c.Takes arg) : read line = .ok c := by
  unfold read
  rw [hwords]
  -- a switch has to be read; a name is taken over, and all else does not depend on the argument
  cases htakes with
  | commit => rfl
  | rollback => rfl
  | @autoCommit on word hword =>
    simp only [name, String.reduceEq, if_true, if_false]
    rw [switch_eq, (read_eq_ok_iff_of_isWord (harg word rfl)).2 hword]
    rfl
  | @smartCommit on word hword =>
    simp only [name, String.reduceEq, if_true, if_false]
    rw [switch_eq, (read_eq_ok_iff_of_isWord (harg word rfl)).2 hword]
    rfl
  | savepoint => rfl
  | release => rfl
  | rollbackTo => rfl
  | status => rfl

theorem read_of_missing {what : String} (hwords : words line = (c.name, none))
    (hneeds : c.needs = some what) : read line = .error (.missing c.name what) := by
  unfold read
  rw [hwords]
  cases c with
  | autoCommit | smartCommit | release | rollbackTo =>
    cases hneeds
    rfl
  | commit | rollback | savepoint | status => cases hneeds

theorem read_of_notASwitch {e : Switch.NotASwitch} (hwords : words line = (c.name, some word))
    (hneeds : c.needs = some "on or off") (hword : Switch.read word = .error e) :
    read line = .error (.notASwitch e) := by
  unfold read
  rw [hwords]
  cases c with
  | autoCommit on =>
    simp only [name, String.reduceEq, if_true, if_false]
    rw [switch_eq, hword]
    rfl
  | smartCommit on =>
    simp only [name, String.reduceEq, if_true, if_false]
    rw [switch_eq, hword]
    rfl
  | release | rollbackTo => exact absurd (Option.some.inj hneeds) (by decide)
  | commit | rollback | savepoint | status => cases hneeds

theorem read_of_unknown {n : String} (hwords : words line = (n, arg)) (hn : ∀ c : Command, n ≠ c.name) :
    read line = .error (.unknown n) := by
  unfold read
  rw [hwords]
  dsimp only
  rw [if_neg (show n ≠ "commit" from hn .commit), if_neg (show n ≠ "rollback" from hn .rollback),
    if_neg (show n ≠ "autocommit" from hn (.autoCommit true)),
    if_neg (show n ≠ "smartcommit" from hn (.smartCommit true)),
    if_neg (show n ≠ "savepoint" from hn (.savepoint none)),
    if_neg (show n ≠ "release" from hn (.release "")),
    if_neg (show n ≠ "rollback_to" from hn (.rollbackTo "")),
    if_neg (show n ≠ "status" from hn .status)]

/-- The words that spell a command are read as that command. -/
theorem read_of_spells (h : LineWords line ws) (hspells : c.Spells ws) : read line = .ok c := by
  obtain ⟨hname, htakes⟩ := hspells
  have hwords := words_of_lineWords h
  rw [List.headD_cons, sameName_name_iff.1 hname, List.tail_cons] at hwords
  exact read_of_takes hwords (fun a ha => h.isWord a (List.mem_cons_of_mem _ (List.mem_of_head? ha)))
    htakes

/-- The words that are refused are refused for the reason that is given. -/
theorem read_of_refuses {e : CommandError} (h : LineWords line ws) (hrefuses : Refuses ws e) :
    read line = .error e := by
  have hwords := words_of_lineWords h
  cases hrefuses with
  | unknown hnone =>
    refine read_of_unknown hwords fun c heq => ?_
    exact absurd ((hnone c).symm.trans (sameName_name_iff.2 heq)) nofun
  | missing hname hneeds =>
    rw [List.headD_cons, sameName_name_iff.1 hname] at hwords
    exact read_of_missing hwords hneeds
  | @notASwitch c word arg more hname hneeds harg =>
    rw [List.headD_cons, sameName_name_iff.1 hname] at hwords
    have hword : IsWord arg := h.isWord arg (by simp)
    exact read_of_notASwitch hwords hneeds (read_eq_error_of_isWord hword harg)

/-- With a name of a command there is an argument that it takes, or that is missing, or that should be
a switch. -/
theorem takes_cases (c : Command) (arg : Option String) :
    (∃ d : Command, d.name = c.name ∧ d.Takes arg) ∨ (∃ what, c.needs = some what ∧ arg = none) ∨
      (c.needs = some "on or off" ∧ ∃ a, arg = some a ∧ ∀ on, ¬Switch.IsWordFor on a) := by
  have hswitch : ∀ a, (∃ on, Switch.IsWordFor on a) ∨ ∀ on, ¬Switch.IsWordFor on a :=
    fun a => (Classical.em _).imp_right not_exists.1
  cases c with
  | commit => exact .inl ⟨.commit, rfl, .commit arg⟩
  | rollback => exact .inl ⟨.rollback, rfl, .rollback arg⟩
  | savepoint => exact .inl ⟨.savepoint arg, rfl, .savepoint arg⟩
  | status => exact .inl ⟨.status, rfl, .status arg⟩
  | release =>
    cases arg with
    | none => exact .inr (.inl ⟨_, rfl, rfl⟩)
    | some a => exact .inl ⟨.release a, rfl, .release a⟩
  | rollbackTo =>
    cases arg with
    | none => exact .inr (.inl ⟨_, rfl, rfl⟩)
    | some a => exact .inl ⟨.rollbackTo a, rfl, .rollbackTo a⟩
  | autoCommit =>
    cases arg with
    | none => exact .inr (.inl ⟨_, rfl, rfl⟩)
    | some a =>
      rcases hswitch a with ⟨on, hon⟩ | hnone
      · exact .inl ⟨.autoCommit on, rfl, .autoCommit hon⟩
      · exact .inr (.inr ⟨rfl, a, rfl, hnone⟩)
  | smartCommit =>
    cases arg with
    | none => exact .inr (.inl ⟨_, rfl, rfl⟩)
    | some a =>
      rcases hswitch a with ⟨on, hon⟩ | hnone
      · exact .inl ⟨.smartCommit on, rfl, .smartCommit hon⟩
      · exact .inr (.inr ⟨rfl, a, rfl, hnone⟩)

/-- **Any words spell a command, or are refused.** -/
theorem spells_or_refuses (ws : List String) : (∃ c : Command, c.Spells ws) ∨ ∃ e, Refuses ws e := by
  by_cases hname : ∃ c : Command, sameName (ws.headD "") c.name = true
  · obtain ⟨c, hc⟩ := hname
    cases ws with
    | nil => exact absurd (sameName_name_iff.1 hc).symm c.isWord_name.1
    | cons word more =>
      rcases takes_cases c more.head? with ⟨d, hd, htakes⟩ | ⟨what, hneeds, hnone⟩ |
        ⟨hneeds, a, hsome, hword⟩
      · -- the command that is spelled has the name of `c`, and an argument of its own
        exact .inl ⟨d, .intro (hd ▸ hc) htakes⟩
      · obtain rfl := List.head?_eq_none_iff.1 hnone
        exact .inr ⟨_, .missing hc hneeds⟩
      · obtain ⟨rest, rfl⟩ := List.head?_eq_some_iff.1 hsome
        exact .inr ⟨_, .notASwitch hc hneeds hword⟩
  · refine .inr ⟨_, .unknown fun c => ?_⟩
    rw [← Bool.not_eq_true]
    exact not_exists.1 hname c

theorem read_eq_ok_iff (h : LineWords line ws) : read line = .ok c ↔ c.Spells ws := by
  refine ⟨fun hread => ?_, read_of_spells h⟩
  rcases spells_or_refuses ws with ⟨d, hd⟩ | ⟨e, he⟩
  · rw [read_of_spells h hd] at hread
    exact Except.ok.inj hread ▸ hd
  · rw [read_of_refuses h he] at hread
    cases hread

theorem read_eq_error_iff {e : CommandError} (h : LineWords line ws) :
    read line = .error e ↔ Refuses ws e := by
  refine ⟨fun hread => ?_, read_of_refuses h⟩
  rcases spells_or_refuses ws with ⟨d, hd⟩ | ⟨e', he⟩
  · rw [read_of_spells h hd] at hread
    cases hread
  · rw [read_of_refuses h he] at hread
    exact Except.error.inj hread ▸ he

end Grammar

section Written

variable {c : Command} {arg : Option String}

/-- The argument that a command is written with. -/
def argument : Command → Option String
  | autoCommit on | smartCommit on => some (toString on)
  | savepoint name => name
  | release name | rollbackTo name => some name
  | commit | rollback | status => none

/-- A line with a name and an argument. -/
def written (name : String) (arg : Option String) : String :=
  "\\" ++ name ++ arg.elim "" (" " ++ ·)

theorem render_eq (c : Command) : c.render = written c.name c.argument := by
  rw [← String.toList_inj]
  cases c with
  | savepoint arg => cases arg <;> simp [render, written, name, argument]
  | _ => simp [render, written, name, argument]

/-- The name and the argument are the words of the line that is written with them. -/
theorem lineWords_written (c : Command) (harg : ∀ a ∈ arg, IsWord a) :
    LineWords (written c.name arg) (c.name :: arg.toList) := by
  have hname : IsWord c.name := c.isWord_name
  cases arg with
  | none =>
    have htext : (written c.name none).toList = '\\' :: c.name.toList := by
      simp [written]
    exact .of_word hname ['\\'] htext htext c.head_name (.last hname)
  | some a =>
    have ha : IsWord a := harg a rfl
    have htext : (written c.name (some a)).toList = '\\' :: (c.name.toList ++ ' ' :: a.toList) := by
      simp [written]
    have hhead : (c.name.toList ++ ' ' :: a.toList).head? ≠ some '\\' := by
      rw [List.head?_append_of_ne_nil _ hname.toList_ne_nil]
      exact c.head_name
    exact .of_word ha ('\\' :: (c.name.toList ++ [' '])) (by simp [htext]) htext hhead
      (.spaced hname (by decide) (.last ha))

theorem takes_argument (c : Command) : c.Takes c.argument := by
  have hword : ∀ on, Switch.IsWordFor on (toString on) := by
    intro on
    exact ⟨toString on, by cases on <;> decide, beq_self_eq_true _⟩
  cases c with
  | commit => exact .commit none
  | rollback => exact .rollback none
  | autoCommit on => exact .autoCommit (hword on)
  | smartCommit on => exact .smartCommit (hword on)
  | savepoint name => exact .savepoint name
  | release name => exact .release name
  | rollbackTo name => exact .rollbackTo name
  | status => exact .status none

/-- A command that takes a word is written with a word. -/
theorem isWord_argument (htakes : c.Takes arg) (harg : ∀ a ∈ arg, IsWord a) :
    ∀ a ∈ c.argument, IsWord a := by
  have hword : ∀ on : Bool, ∀ a ∈ some (toString on), IsWord a := by
    decide +kernel
  cases htakes with
  | commit | rollback | status => exact nofun
  | @autoCommit on | @smartCommit on => exact hword on
  | savepoint | release | rollbackTo => exact harg

/-- **Lines are read by the grammar of commands.** Every line has exactly one list of words, behind the
backslashes that it begins with. It is read as a command if and only if its words spell that command:
the first one is the name in any case, the second one the argument, and any further ones do not
matter. Otherwise it is refused, with the reason that the grammar gives. A command is read back from
its name and any word for its argument, and from its written form exactly if its argument, where it has
one, is not empty and has no blanks in it. -/
theorem read_iff_spelled (line : String) (c : Command) :
    (∃! ws, LineWords line ws) ∧
      (read line = .ok c ↔ ∃ ws, LineWords line ws ∧ c.Spells ws) ∧
      (∀ e, read line = .error e ↔ ∃ ws, LineWords line ws ∧ Refuses ws e) ∧
      (∀ arg, (∀ a ∈ arg, IsWord a) → (read (written c.name arg) = .ok c ↔ c.Takes arg)) ∧
      (read c.render = .ok c ↔ ∀ a ∈ c.argument, IsWord a) := by
  obtain ⟨ws, hws, hunique⟩ := existsUnique_lineWords line
  have hwritten : ∀ arg, (∀ a ∈ arg, IsWord a) →
      (read (written c.name arg) = .ok c ↔ c.Takes arg) := by
    intro arg harg
    rw [read_eq_ok_iff (lineWords_written c harg)]
    constructor
    · rintro ⟨-, htakes⟩
      rwa [Option.head?_toList] at htakes
    · intro htakes
      refine .intro (beq_self_eq_true _) ?_
      rwa [Option.head?_toList]
  refine ⟨⟨ws, hws, hunique⟩, ?_, fun e => ?_, hwritten, fun hread => ?_, fun harg => ?_⟩
  · exact ⟨fun h => ⟨ws, hws, (read_eq_ok_iff hws).1 h⟩, fun ⟨_, h, hc⟩ => read_of_spells h hc⟩
  · exact ⟨fun h => ⟨ws, hws, (read_eq_error_iff hws).1 h⟩, fun ⟨_, h, he⟩ => read_of_refuses h he⟩
  · -- whatever the words of the written form are, the argument is among them
    obtain ⟨found, hfound, -⟩ := existsUnique_lineWords c.render
    obtain ⟨-, htakes⟩ := (read_eq_ok_iff hfound).1 hread
    exact isWord_argument htakes fun a ha =>
      hfound.isWord a (List.mem_cons_of_mem _ (List.mem_of_head? ha))
  · rw [render_eq]
    exact (hwritten _ harg).2 c.takes_argument

/-- A switch in capitals behind two backslashes, with blanks of several kinds and a further word, and a
name that begins with a backslash. -/
theorem capitals_and_blanks :
    let line := " \\\\AutoCommit\u2003OFF now\t"
    LineWords line ["AutoCommit", "OFF", "now"] ∧ read line = .ok (.autoCommit false) ∧
      IsWord "\\x" ∧ read "\\savepoint \\x" = .ok (.savepoint (some "\\x")) ∧
      read "\\release" = .error (.missing "release" "a savepoint name") := by
  intro line
  have hwords : LineWords line ["AutoCommit", "OFF", "now"] := by
    have hnow : Words ("now".toList) ["now"] := .last (by decide)
    have hoff : Words ("OFF".toList ++ ' ' :: "now".toList) ["OFF", "now"] :=
      .spaced (by decide) (by decide) hnow
    have hall : Words ("AutoCommit".toList ++ '\u2003' :: ("OFF".toList ++ ' ' :: "now".toList))
        ["AutoCommit", "OFF", "now"] := .spaced (by decide) (by decide) hoff
    have htext : (trim line.toList).dropWhile (· == '\\') =
        "AutoCommit".toList ++ '\u2003' :: ("OFF".toList ++ ' ' :: "now".toList) := by
      decide +kernel
    rw [lineWords_iff, htext]
    exact hall
  have hoff : Switch.IsWordFor false "OFF" := ⟨"off", by decide, by decide⟩
  have hx : ∀ a ∈ some "\\x", IsWord a := by decide
  obtain ⟨-, hread, -, -, -⟩ := read_iff_spelled line (.autoCommit false)
  obtain ⟨-, -, -, hwritten, -⟩ := read_iff_spelled line (.savepoint (some "\\x"))
  obtain ⟨-, -, hrefused, -, -⟩ := read_iff_spelled "\\release" (.release "")
  refine ⟨hwords, hread.2 ⟨_, hwords, .intro (by decide) (.autoCommit hoff)⟩, hx _ rfl,
    (hwritten _ hx).2 (.savepoint _), (hrefused _).2 ⟨["release"], ?_, ?_⟩⟩
  · exact @lineWords_written none (.release "") nofun
  · exact .missing (c := .release "") (by decide) rfl

end Written

end Command

end Shell
end DeferredTx
