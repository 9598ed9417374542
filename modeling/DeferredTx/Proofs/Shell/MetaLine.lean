import DeferredTx.Proofs.Shell.Carried
import DeferredTx.Proofs.Shell.Portions
import DeferredTx.Proofs.Statement.Again

/-!
# Lines that begin with a backslash

Such a line is a meta command if nothing but blanks has been gathered in front of it. Comments are
gathered like everything else, and the shell does not look into what it has gathered.

* `stepsFrom_append`: the steps of lines behind others.
* `stepsBehind`, `exists_run_of_line`: a line behind anything but blanks is run before anything else.
* `IdleSince`, `allBlank_stepsFrom_iff`: when nothing but blanks has been gathered.
* `blank_iff_no_comment`: a text of blanks and comments is blank if no comment is in it.
* `meta_line_runs_iff`: **when a line that begins with a backslash is a meta command**, and what becomes
  of it otherwise.
-/

namespace DeferredTx.Shell

open Text (allBlank trim)
open Statement (Piece Reading existsUnique_reading isPlain isPlain_of uncommented
  uncommented_of_reading)

variable {gathered line : String} {front lines : List String}

/-- What is gathered behind anything but blanks does not make blanks of it. -/
theorem allBlank_more (h : allBlank gathered.toList = false) (line : String) :
    allBlank (gathered ++ line ++ "\n").toList = false := by
  rw [String.append_assoc, allBlank_append, h, Bool.false_and]

/-- A line that begins with a backslash is a meta command behind blanks. -/
theorem gather_command (hblank : allBlank gathered.toList = true)
    (hmeta : (trim line.toList).head? = some '\\') :
    gather gathered line = (some (.command (String.ofList (trim line.toList))), gathered) := by
  unfold gather
  rw [if_pos]
  rw [hblank, hmeta]
  rfl

/-- Behind anything else it is gathered, as all other lines are. -/
theorem gather_line (gathered line : String)
    (h : allBlank gathered.toList = false ∨ (trim line.toList).head? ≠ some '\\') :
    gather gathered line = if (trim line.toList).getLast? = some ';'
      then (some (.run (gathered ++ line ++ "\n")), "") else (none, gathered ++ line ++ "\n") := by
  unfold gather
  rw [if_neg]
  rcases h with h | h <;> simp [h]

/-- What has been gathered behind a line: what has been before it, nothing, or the line as well. -/
theorem gathered_cases (gathered line : String) :
    (allBlank gathered.toList = true ∧ (trim line.toList).head? = some '\\' ∧
        (gather gathered line).2 = gathered) ∨
      (gather gathered line).2 = "" ∨ (gather gathered line).2 = gathered ++ line ++ "\n" := by
  by_cases hblank : allBlank gathered.toList = true
  · by_cases hmeta : (trim line.toList).head? = some '\\'
    · exact .inl ⟨hblank, hmeta, by rw [gather_command hblank hmeta]⟩
    · rw [gather_line _ _ (.inr hmeta)]
      split <;> simp
  · rw [gather_line _ _ (.inl (Bool.eq_false_iff.2 hblank))]
    split <;> simp

/-- The steps of lines behind others. -/
theorem stepsFrom_append (gathered : String) (front back : List String) :
    stepsFrom gathered (front ++ back) =
      ((stepsFrom gathered front).1 ++ (stepsFrom (stepsFrom gathered front).2 back).1,
        (stepsFrom (stepsFrom gathered front).2 back).2) := by
  induction front generalizing gathered with
  | nil => rfl
  | cons line front ih => simp only [List.cons_append, stepsFrom, ih, List.append_assoc]

/-- What the shell does on the last lines of a script, with what has been gathered in front of them. -/
def stepsBehind (gathered : String) (lines : List String) : List Step :=
  (stepsFrom gathered lines).1 ++ (lastStep (stepsFrom gathered lines).2).toList

theorem steps_append (front back : List String) :
    steps (front ++ back) = (stepsFrom "" front).1 ++ stepsBehind (stepsFrom "" front).2 back := by
  unfold steps stepsBehind
  simp only [stepsFrom_append, List.append_assoc]

/-- A line behind anything but blanks ends what has been gathered, or is gathered with it. -/
theorem stepsBehind_cons (h : allBlank gathered.toList = false) (line : String) (lines : List String) :
    stepsBehind gathered (line :: lines) = if (trim line.toList).getLast? = some ';'
      then .run (gathered ++ line ++ "\n") :: stepsBehind "" lines
      else stepsBehind (gathered ++ line ++ "\n") lines := by
  have hline := gather_line gathered line (.inl h)
  by_cases hends : (trim line.toList).getLast? = some ';'
  · rw [if_pos hends] at hline ⊢
    simp only [stepsBehind, stepsFrom, hline]
    rfl
  · rw [if_neg hends] at hline ⊢
    simp only [stepsBehind, stepsFrom, hline]
    rfl

/-- **A line behind anything but blanks is run** with what has been gathered in front of it, before
anything else is done. -/
theorem exists_run_of_line (h : allBlank gathered.toList = false) (line : String) (lines : List String) :
    ∃ text behind, stepsBehind gathered (line :: lines) = .run text :: behind ∧
      (gathered ++ line ++ "\n").toList <+: text.toList := by
  induction lines generalizing gathered line with
  | nil =>
    have hlast : stepsBehind (gathered ++ line ++ "\n") [] = [.run (gathered ++ line ++ "\n")] := by
      unfold stepsBehind stepsFrom lastStep
      rw [allBlank_more h line]
      rfl
    refine ⟨gathered ++ line ++ "\n", [], ?_, List.prefix_rfl⟩
    rw [stepsBehind_cons h, hlast]
    split <;> rfl
  | cons next lines ih =>
    rw [stepsBehind_cons h]
    by_cases hends : (trim line.toList).getLast? = some ';'
    · rw [if_pos hends]
      exact ⟨_, _, rfl, List.prefix_rfl⟩
    · rw [if_neg hends]
      obtain ⟨text, behind, hsteps, htext⟩ := ih (allBlank_more h line) next
      have hmore : (gathered ++ line ++ "\n").toList <+:
          (gathered ++ line ++ "\n" ++ next ++ "\n").toList :=
        ⟨(next ++ "\n").toList, by simp only [String.toList_append, List.append_assoc]⟩
      exact ⟨text, behind, hsteps, hmore.trans htext⟩

/-- Blank lines and meta commands leave blanks behind blanks. -/
theorem allBlank_of_since (hblank : allBlank gathered.toList = true)
    (h : ∀ l ∈ lines, allBlank l.toList = true ∨ (trim l.toList).head? = some '\\') :
    allBlank (stepsFrom gathered lines).2.toList = true := by
  induction lines generalizing gathered with
  | nil => exact hblank
  | cons line lines ih =>
    obtain ⟨hline, hlines⟩ := List.forall_mem_cons.1 h
    unfold stepsFrom
    by_cases hmeta : (trim line.toList).head? = some '\\'
    · rw [gather_command hblank hmeta]
      exact ih hblank hlines
    · have hmore : allBlank (gathered ++ line ++ "\n").toList = true := by
        rw [allBlank_append, allBlank_append, hblank, hline.resolve_right hmeta]
        decide
      rw [gather_line _ _ (.inr hmeta)]
      by_cases hends : (trim line.toList).getLast? = some ';'
      · rw [if_pos hends]
        exact ih (by rfl) hlines
      · rw [if_neg hends]
        exact ih hmore hlines

/-- Whether all lines since what has been run last are blank or begin with a backslash. -/
def IdleSince (front : List String) : Prop :=
  ∃ ran since, front = ran ++ since ∧ (stepsFrom "" ran).2 = "" ∧
    ∀ l ∈ since, allBlank l.toList = true ∨ (trim l.toList).head? = some '\\'

theorem IdleSince.snoc (h : IdleSince front)
    (hline : allBlank line.toList = true ∨ (trim line.toList).head? = some '\\') :
    IdleSince (front ++ [line]) := by
  obtain ⟨ran, since, rfl, hran, hsince⟩ := h
  refine ⟨ran, since ++ [line], List.append_assoc .., hran, ?_⟩
  exact List.forall_mem_append.2 ⟨hsince, List.forall_mem_singleton.2 hline⟩

/-- **Nothing but blanks has been gathered** if and only if all lines since what has been run last are
blank or begin with a backslash. -/
theorem allBlank_stepsFrom_iff (front : List String) :
    allBlank (stepsFrom "" front).2.toList = true ↔ IdleSince front := by
  constructor
  · intro h
    induction front using List.reverseRecOn with
    | nil => exact ⟨[], [], rfl, rfl, nofun⟩
    | append_singleton front line ih =>
      have hlast : (stepsFrom "" (front ++ [line])).2 = (gather (stepsFrom "" front).2 line).2 := by
        rw [stepsFrom_append]
        rfl
      rw [hlast] at h
      rcases gathered_cases (stepsFrom "" front).2 line with ⟨hfront, hmeta, -⟩ | hran | hmore
      · exact (ih hfront).snoc (.inr hmeta)
      · exact ⟨front ++ [line], [], (List.append_nil _).symm, hlast.trans hran, nofun⟩
      · rw [hmore, allBlank_append, allBlank_append, Bool.and_eq_true, Bool.and_eq_true] at h
        exact (ih h.1.1).snoc (.inl h.1.2)
  · rintro ⟨ran, since, rfl, hran, hsince⟩
    rw [stepsFrom_append, hran]
    exact allBlank_of_since rfl hsince

/-- **A text of blanks and comments is blank** if and only if no comment is in it. -/
theorem blank_iff_no_comment {text kept : List Char} (hscan : uncommented text = some kept)
    (hkept : allBlank kept = true) :
    ∃ pieces, Reading text (some pieces) ∧
      (allBlank text = true ↔ ∀ p ∈ pieces, p.isComment = false) := by
  obtain ⟨r, hpieces, hunique⟩ := existsUnique_reading text
  have hsame := uncommented_of_reading hpieces
  rw [hscan] at hsame
  obtain ⟨pieces, hr, rfl⟩ := Option.map_eq_some_iff.1 hsame.symm
  rw [hr] at hpieces
  refine ⟨pieces, hpieces, fun hblank => ?_, fun hnone => ?_⟩
  · -- blanks are single characters, in the one reading that the text has
    have hplain : text.all isPlain = true :=
      List.all_eq_true.2 fun c hc => isPlain_of (List.all_eq_true.1 hblank c hc) (by decide)
    have hsingles : Reading text (some (text.map .other)) := by
      simpa using Reading.of_plain hplain .nil
    obtain rfl := Option.some.inj (hr.symm.trans (hunique _ hsingles).symm)
    intro p hp
    obtain ⟨c, -, rfl⟩ := List.mem_map.1 hp
    rfl
  · have hall : Piece.without pieces = pieces :=
      List.filter_eq_self.2 fun p hp => by rw [hnone p hp]; rfl
    rw [Piece.flatMap_kept, hall, ← hpieces.text_eq pieces rfl] at hkept
    exact hkept

namespace Session

open DeferredTx.Session (Connector Database Delegate inMemory)

/-- **When a line that begins with a backslash is a meta command.** If nothing but blanks has been
gathered in front of it, it is carried out as one, and what has been gathered stays as it is. Otherwise
it is run as a part of a text, the next one that is run. Nothing but blanks has been gathered if and
only if all lines since what has been run last are blank or meta commands. So where blanks and comments
have been gathered, the line is a meta command if and only if no comment is among them. A meta command
that is carried out comes to what its line asks the controller for. The program carries out the steps of
its script, up to a line that is no valid UTF-8, whatever connects it to a database and whatever splits
its texts. -/
theorem meta_line_runs_iff {front back : List String} {line : String}
    (hmeta : (trim line.toList).head? = some '\\') :
    let done := (stepsFrom "" front).1
    let gathered := (stepsFrom "" front).2
    let text := String.ofList (trim line.toList)
    let command := Step.command text
    (allBlank gathered.toList = true →
      stepsFrom "" (front ++ line :: back) =
          (done ++ command :: (stepsFrom gathered back).1, (stepsFrom gathered back).2) ∧
        steps (front ++ line :: back) = done ++ command :: stepsBehind gathered back) ∧
      (allBlank gathered.toList = false →
        ∃ text behind, steps (front ++ line :: back) = done ++ .run text :: behind ∧
          (gathered ++ line ++ "\n").toList <+: text.toList) ∧
      (allBlank gathered.toList = true ↔ IdleSince front) ∧
      (∀ kept, uncommented gathered.toList = some kept → allBlank kept = true →
        ∃ pieces, Reading gathered.toList (some pieces) ∧
          (allBlank gathered.toList = true ↔ ∀ p ∈ pieces, p.isComment = false)) ∧
      (∀ {δ : Type} [Delegate δ] (s : Session δ) x, Carried text s x ↔ x = runStep command s) ∧
      ∀ {σ : Type} [Database σ] (connector : Connector σ) split files vars source settings controller
          bytes valid, Settings.load files vars = .ok settings →
        connector.openWith settings = .ok controller → source.bytes files = .ok bytes →
        readLines bytes.toList = (front ++ line :: back, valid) →
        (performAll (if valid then steps (front ++ line :: back)
            else (stepsFrom "" (front ++ line :: back)).1) (start split controller)).1 <+:
          (programOver connector split files vars source).messages := by
  intro done gathered text command
  refine ⟨fun hblank => ?_, fun hcovered => ?_, allBlank_stepsFrom_iff front,
    fun kept hscan hkept => blank_iff_no_comment hscan hkept, fun s x => carried_iff,
    fun _ _ _ _ _ _ _ _ _ hload hopen hsource hread => performAll_of_program hload hopen hsource hread⟩
  · have hgather := gather_command hblank hmeta
    constructor
    · rw [stepsFrom_append]
      simp only [stepsFrom, gathered, hgather]
      rfl
    · rw [steps_append]
      simp only [stepsBehind, stepsFrom, gathered, hgather]
      rfl
  · obtain ⟨text, behind, hsteps, htext⟩ := exists_run_of_line hcovered line back
    exact ⟨text, behind, by rw [steps_append, hsteps], htext⟩

/-- Behind a statement that has been run and a blank line. -/
theorem status_behind_blank_line :
    let script := "SELECT 1;\n\n\\status"
    let files : Files := fun _ => .error .notFound
    let front := ["SELECT 1;", ""]
    (trim "\\status".toList).head? = some '\\' ∧
      steps (front ++ ["\\status"]) = [.run "SELECT 1;\n", .command "\\status"] ∧
      [.output "\x7b\"1\":1\x7d", .output "autocommit=true smartcommit=true delegate_autocommit=true"] <+:
        (program files {} (.input script.toUTF8)).messages := by
  intro script files front
  have hmeta : (trim "\\status".toList).head? = some '\\' := rfl
  obtain ⟨hcommand, -, -, -, -, hprogram⟩ := @meta_line_runs_iff front [] _ hmeta
  obtain ⟨-, hsteps⟩ := hcommand (by decide +kernel)
  have hread : readLines script.toUTF8.toList = (front ++ ["\\status"], true) := by decide +kernel
  have hprefix := hprogram inMemory Sql.Script.split files {} (.input script.toUTF8) {} _ _ true rfl
    rfl rfl hread
  refine ⟨hmeta, hsteps.trans (by decide +kernel), ?_⟩
  rw [if_pos rfl, hsteps] at hprefix
  exact List.IsPrefix.trans (by decide +kernel) hprefix

/-- A comment that is ended, with nothing but blanks around it, hides the meta command behind it. -/
theorem comment_hides_command :
    let gathered := (stepsFrom "" ["-- start"]).2
    let script := "-- start\n\\status\n"
    Statement.reading .code gathered.toList [] = some (['\n'], .code) ∧
      (trim "\\status".toList).head? = some '\\' ∧
      readLines script.toUTF8.toList = (["-- start", "\\status"], true) ∧
      steps ["-- start", "\\status"] = [.run script] ∧
      (program (fun _ => .error .notFound) {} (.input script.toUTF8)).messages =
        [.error "Error: Database error: the statement was refused"] := by
  decide +kernel

end Session
end DeferredTx.Shell
