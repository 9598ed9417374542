import DeferredTx.Proofs.Shell.Lines
import DeferredTx.Proofs.Sql.Whole
import DeferredTx.Proofs.Statement.FirstWord

/-!
# The texts that a script is run in

The shell runs a script text by text, and a text ends where a line ends in a semicolon. If statements
are complete there, the texts are split into what the script is split into.

* `joinLines`: the text of lines, each with a line feed.
* `relaid_joinLines`: that is the script but for how its lines end.
* `WholeAtStops`: statements are complete behind every line that ends in a semicolon.
* `exists_pieces`: **the texts that a script is run in are split into its statements.**
-/

namespace DeferredTx.Shell

open Sql (Relaid atLineEnd_feed Script.split isWhole)
open Text (allBlank isBlank trim)

/-- The text of lines, each with a line feed. -/
def joinLines (ls : List (List Char)) : List Char :=
  ls.flatMap (· ++ ['\n'])

theorem joinLines_append (ls ms : List (List Char)) :
    joinLines (ls ++ ms) = joinLines ls ++ joinLines ms :=
  List.flatMap_append

theorem joinLines_cons (l : List Char) (ls : List (List Char)) :
    joinLines (l :: ls) = l ++ '\n' :: joinLines ls := by
  simp [joinLines]

theorem joinLines_snoc (ls : List (List Char)) (l : List Char) :
    joinLines (ls ++ [l]) = joinLines ls ++ l ++ ['\n'] := by
  simp [joinLines]

theorem allBlank_joinLines {ls : List (List Char)} (h : ∀ l ∈ ls, allBlank l = true) :
    allBlank (joinLines ls) = true := by
  refine List.all_eq_true.2 fun c hc => ?_
  obtain ⟨l, hl, hmem⟩ := List.mem_flatMap.1 hc
  rcases List.mem_append.1 hmem with hmem | hmem
  · exact List.all_eq_true.1 (h l hl) c hmem
  · obtain rfl := List.mem_singleton.1 hmem
    decide

/-- The lines of a script make up the script, but for how they end. -/
theorem relaid_joinLines {cs : List Char} {ls : List (List Char)} (h : Lines cs ls) :
    Relaid True cs (joinLines ls) := by
  induction h with
  | nil => exact .blank nofun nofun rfl rfl
  | @last l hne hl =>
    have hend : Relaid True [] ['\n'] := .blank nofun (atLineEnd_feed []) rfl rfl
    simpa [joinLines_cons, joinLines] using hend.append_left l
  | @feed l rest ls hl hreturn _ ih =>
    rw [joinLines_cons]
    exact (ih.same '\n').append_left l
  | @returnFeed l rest ls hl _ ih =>
    rw [joinLines_cons]
    exact (Relaid.feed trivial ih).append_left l

/-- Blank lines behind a text do not matter. -/
theorem split_of_blank_behind {held : List (List Char)} {l : List Char} {rest : List (List Char)}
    {texts : List String} (hblank : ∀ l ∈ rest, allBlank l = true)
    (h : Script.split .sqlite (String.ofList (joinLines (held ++ l :: rest))) = .ok texts) :
    Script.split .sqlite (String.ofList (joinLines (held ++ [l]))) = .ok texts := by
  have hends : Relaid False ('\n' :: joinLines rest) ['\n'] :=
    .blank (atLineEnd_feed _) (atLineEnd_feed []) (allBlank_joinLines hblank) rfl
  have hrelaid := hends.append_left (joinLines held ++ l)
  rw [joinLines_append, joinLines_cons, ← List.append_assoc] at h
  rw [joinLines_snoc]
  exact Sql.split_of_relaid hrelaid h False.elim

/-- Statements are complete behind every line of `rest` that ends in a semicolon and has more than
blanks behind it, if `held` stands in front of the lines. -/
def WholeAtStops (held rest : List (List Char)) : Prop :=
  ∀ front line back, rest = front ++ line :: back → (trim line).getLast? = some ';' →
    (∃ l ∈ back, allBlank l = false) → isWhole (joinLines (held ++ front ++ [line])) = true

section Pieces

variable {held rest : List (List Char)} {l : List Char} {texts : List String}

theorem wholeAtStops_cons : WholeAtStops held (l :: rest) ↔
    ((trim l).getLast? = some ';' → (∃ m ∈ rest, allBlank m = false) →
      isWhole (joinLines (held ++ [l])) = true) ∧ WholeAtStops (held ++ [l]) rest := by
  constructor
  · intro h
    refine ⟨fun hstop hmore => ?_, fun front line back hrest hstop hmore => ?_⟩
    · simpa using h [] l rest rfl hstop hmore
    · have hall := h (l :: front) line back (congrArg (l :: ·) hrest) hstop hmore
      simpa using hall
  · rintro ⟨hl, hrest⟩ front line back heq hstop hmore
    cases front with
    | nil =>
      obtain ⟨rfl, rfl⟩ := List.cons.inj heq
      simpa using hl hstop hmore
    | cons x front =>
      obtain ⟨rfl, htail⟩ := List.cons.inj heq
      simpa using hrest front line back htail hstop hmore

instance decidableWholeAtStops : (held rest : List (List Char)) → Decidable (WholeAtStops held rest)
  | _, [] => isTrue fun front line back h => absurd h (by simp)
  | held, l :: rest =>
    have := decidableWholeAtStops (held ++ [l]) rest
    decidable_of_iff _ wholeAtStops_cons.symm

theorem getLast?_joinLines_snoc (ls : List (List Char)) (l : List Char) :
    (joinLines (ls ++ [l])).getLast? = some '\n' := by
  rw [joinLines_snoc, List.getLast?_concat]

/-- Lines behind a whole text can be taken on their own. -/
theorem WholeAtStops.behind (h : WholeAtStops (held ++ [l]) rest)
    (hwhole : isWhole (joinLines (held ++ [l])) = true) : WholeAtStops [] rest := by
  intro front line back hrest hstop hmore
  have hall := h front line back hrest hstop hmore
  rw [List.append_assoc, joinLines_append] at hall
  exact Sql.isWhole_of_append (getLast?_joinLines_snoc held l) hwhole hall

/-- Behind a line that ends in a semicolon, a script is split on its own. -/
theorem exists_split_behind (hwhole : WholeAtStops held (l :: rest))
    (hstop : (trim l).getLast? = some ';')
    (h : Script.split .sqlite (String.ofList (joinLines (held ++ l :: rest))) = .ok texts) :
    ∃ a b, Script.split .sqlite (String.ofList (joinLines (held ++ [l]))) = .ok a ∧
      Script.split .sqlite (String.ofList (joinLines rest)) = .ok b ∧ texts = a ++ b ∧
      WholeAtStops [] rest := by
  -- statements need not be complete in front of blanks, since nothing is run behind them
  by_cases hmore : ∃ m ∈ rest, allBlank m = false
  · have hfront := (wholeAtStops_cons.1 hwhole).1 hstop hmore
    rw [List.append_cons, joinLines_append] at h
    obtain ⟨a, b, ha, hb, htexts⟩ := Sql.split_append (getLast?_joinLines_snoc held l) hfront h
    exact ⟨a, b, ha, hb, htexts, (wholeAtStops_cons.1 hwhole).2.behind hfront⟩
  · have hblank : ∀ m ∈ rest, allBlank m = true := by simpa using hmore
    refine ⟨texts, [], split_of_blank_behind hblank h, Sql.split_blank (allBlank_joinLines hblank),
      (List.append_nil texts).symm, fun front line back hrest _ hback => ?_⟩
    obtain ⟨m, hm, hsolid⟩ := hback
    exact absurd ⟨m, by simp [hrest, hm], hsolid⟩ hmore

/-- No line of such a script is a meta command. -/
theorem not_command_of_split
    (h : Script.split .sqlite (String.ofList (joinLines (held ++ l :: rest))) = .ok texts) :
    (allBlank (joinLines held) && (trim l).head? == some '\\') = false := by
  refine Bool.eq_false_iff.2 fun hcommand => ?_
  obtain ⟨hblank, hhead⟩ := Bool.and_eq_true_iff.1 hcommand
  obtain ⟨word, hword⟩ := List.head?_eq_some_iff.1 (beq_iff_eq.1 hhead)
  obtain ⟨more, hmore⟩ := Statement.isPrefix_trimEnd (l.dropWhile isBlank)
  have hl : l = l.takeWhile isBlank ++ '\\' :: (word ++ more) := by
    rw [← List.cons_append, ← hword, trim, hmore, List.takeWhile_append_dropWhile]
  have hfront : allBlank (joinLines held ++ l.takeWhile isBlank) = true := by
    rw [allBlank, List.all_append, Bool.and_eq_true]
    exact ⟨hblank, List.all_takeWhile⟩
  rw [joinLines_append, joinLines_cons, hl, List.append_assoc, List.cons_append,
    ← List.append_assoc] at h
  exact Sql.ne_backslash_of_split hfront h

/-- **The texts that a script is run in are split into its statements**, from any point of the script
on. -/
theorem exists_pieces_from (hwhole : WholeAtStops held rest)
    (h : Script.split .sqlite (String.ofList (joinLines (held ++ rest))) = .ok texts) :
    ∃ pieces : List (String × List String),
      let (steps, left) := stepsFrom (String.ofList (joinLines held)) (rest.map String.ofList)
      steps ++ (lastStep left).toList = pieces.map (fun p => .run p.1) ∧
        (∀ p ∈ pieces, Script.split .sqlite p.1 = .ok p.2) ∧ texts = pieces.flatMap Prod.snd := by
  induction rest generalizing held texts with
  | nil =>
    rw [List.append_nil] at h
    simp only [List.map_nil, stepsFrom, List.nil_append, lastStep, String.toList_ofList]
    by_cases hblank : allBlank (joinLines held) = true
    · obtain rfl : [] = texts := Except.ok.inj ((Sql.split_blank hblank).symm.trans h)
      exact ⟨[], by simp [hblank], nofun, rfl⟩
    · exact ⟨[(String.ofList (joinLines held), texts)], by simp [hblank], List.forall_mem_singleton.2 h,
        by simp⟩
  | cons l rest ih =>
    have hmore : String.ofList (joinLines held) ++ String.ofList l ++ "\n" =
        String.ofList (joinLines (held ++ [l])) := by
      rw [joinLines_snoc, String.ofList_append, String.ofList_append]
    simp only [List.map_cons, stepsFrom, gather, String.toList_ofList, not_command_of_split h,
      Bool.false_eq_true, if_false, hmore]
    by_cases hstop : (trim l).getLast? = some ';'
    · -- what has been gathered is run, and the lines behind it start anew
      obtain ⟨a, b, ha, hb, rfl, hbehind⟩ := exists_split_behind hwhole hstop h
      obtain ⟨pieces, hsteps, hpieces, rfl⟩ := ih hbehind hb
      simp only [hstop, if_true]
      exact ⟨(String.ofList (joinLines (held ++ [l])), a) :: pieces,
        congrArg (Step.run _ :: ·) hsteps, List.forall_mem_cons.2 ⟨ha, hpieces⟩, rfl⟩
    · simp only [hstop, if_false]
      rw [List.append_cons] at h
      exact ih (wholeAtStops_cons.1 hwhole).2 h

end Pieces

/-- **The texts that a script is run in are split into its statements.** -/
theorem exists_pieces {script : String} {ls : List (List Char)} {texts : List String}
    (hlines : Lines script.toList ls) (hwhole : WholeAtStops [] ls)
    (hreturns : ∀ t ∈ Sql.tokens .sqlite script.toList, ¬Sql.HasReturn t.text)
    (h : Script.split .sqlite script = .ok texts) :
    ∃ pieces : List (String × List String),
      steps (ls.map String.ofList) = pieces.map (fun p => .run p.1) ∧
        (∀ p ∈ pieces, Script.split .sqlite p.1 = .ok p.2) ∧ texts = pieces.flatMap Prod.snd := by
  rw [← String.ofList_toList (s := script)] at h
  have hjoined := Sql.split_of_relaid (relaid_joinLines hlines) h fun _ => hreturns
  exact exists_pieces_from hwhole hjoined

end DeferredTx.Shell
