import Mathlib
import DeferredTx.Proofs.Statement.FirstWord
import DeferredTx.Proofs.Statement.Seam

/-!
# Letter case does not matter

Nothing that scanning, cleaning and classifying look for tells the two cases of a letter apart, so each
of them commutes with folding.

* `class_toLower`: a class of characters without letters.
* `scan_fold`, `finish_fold`, `behindHint?_fold`, `opensWith_fold`: **folding may be done before or after.**
* `stripHint_sameName`, `kindOf_sameName`: texts that differ in case only.
* `case_does_not_matter`: **they are classified alike.**
-/

namespace DeferredTx.Statement

open Text

section Letters

variable {c d : Char}

theorem isAlpha_iff : c.isAlpha = true ↔
    65 ≤ c.toNat ∧ c.toNat ≤ 90 ∨ 97 ≤ c.toNat ∧ c.toNat ≤ 122 := by
  simp [Char.isAlpha, Char.isUpper, Char.isLower, UInt32.le_iff_toNat_le, ← Char.toNat_val]

theorem toLower_of_not_isAlpha (h : c.isAlpha = false) : c.toLower = c := by
  refine Char.toLower_eq_of_not_isUpper fun hupper => ?_
  rw [Char.isAlpha, hupper] at h
  cases h

/-- A class of characters without letters does not tell the cases of a letter apart. -/
theorem class_toLower {p : Char → Bool} (hp : ∀ c, p c = true → c.isAlpha = false) (c : Char) :
    p c.toLower = p c := by
  cases hc : c.isAlpha with
  | false => rw [toLower_of_not_isAlpha hc]
  | true =>
    have hnot : ∀ {x : Char}, x.isAlpha = true → p x = false := by
      intro x hx
      rw [← Bool.not_eq_true]
      exact fun hpx => absurd (hx.symm.trans (hp x hpx)) nofun
    rw [hnot hc, hnot ((Char.isAlpha_toLower_eq_isAlpha c).trans hc)]

theorem toLower_eq_iff (hd : d.isAlpha = false) : c.toLower = d ↔ c = d := by
  have hclass : ∀ x, (x == d) = true → x.isAlpha = false := by
    intro x hx
    rwa [beq_iff_eq.1 hx]
  rw [← beq_iff_eq, class_toLower hclass, beq_iff_eq]

theorem not_isAlpha_of_isBlank (h : isBlank c = true) : c.isAlpha = false := by
  simp only [isBlank, Bool.or_eq_true, Bool.and_eq_true, decide_eq_true_eq, beq_iff_eq] at h
  rw [← Bool.not_eq_true, isAlpha_iff]
  omega

theorem not_isAlpha_of_isQuote (h : isQuote c = true) : c.isAlpha = false := by
  simp only [isQuote, Bool.or_eq_true, beq_iff_eq] at h
  rcases h with (rfl | rfl) | rfl <;> decide

end Letters

section Fold

variable {cs : List Char} {c d : Char}

theorem fold_fold (cs : List Char) : fold (fold cs) = fold cs := by
  simp [fold, Function.comp_def]

theorem fold_append (a b : List Char) : fold (a ++ b) = fold a ++ fold b :=
  List.map_append

theorem head?_fold (hd : d.isAlpha = false) : (fold cs).head? = some d ↔ cs.head? = some d := by
  cases cs with
  | nil => rfl
  | cons c cs => simp [fold, toLower_eq_iff hd]

theorem take_two_fold (hd : d.isAlpha = false) : (fold cs).take 2 = [d, d] ↔ cs.take 2 = [d, d] := by
  rcases cs with _ | ⟨c, _ | ⟨c', cs⟩⟩
  · rfl
  · simp [fold]
  · simp [fold, toLower_eq_iff hd]

/-- Letters are all alike for the scanner. -/
theorem advance_letter {m : Mode} {s t : List Char} (hm : m.Expects t) (hc : c.isAlpha = true)
    (hd : d.isAlpha = true) : advance m c s = advance m d s := by
  have hne : ∀ {x y : Char}, x.isAlpha = true → y.isAlpha = false → x ≠ y := by
    rintro x y hx hy rfl
    exact absurd (hx.symm.trans hy) nofun
  have hquote : ∀ {x : Char}, x.isAlpha = true → isQuote x = false := by
    intro x hx
    rw [← Bool.not_eq_true]
    exact fun h => absurd (hx.symm.trans (not_isAlpha_of_isQuote h)) nofun
  have hbreak : ∀ {x : Char}, x.isAlpha = true → isLineBreak x = false := by
    intro x hx
    simp [isLineBreak, hne hx (by decide : '\n'.isAlpha = false),
      hne hx (by decide : '\r'.isAlpha = false)]
  unfold advance
  split
  case h_1 =>
    simp [hne hc (by decide : '#'.isAlpha = false), hne hd (by decide : '#'.isAlpha = false),
      hne hc (by decide : '-'.isAlpha = false), hne hd (by decide : '-'.isAlpha = false),
      hne hc (by decide : '/'.isAlpha = false), hne hd (by decide : '/'.isAlpha = false),
      hquote hc, hquote hd]
  case h_2 =>
    simp only [if_neg (hne hc (by decide : '\n'.isAlpha = false)),
      if_neg (hne hd (by decide : '\n'.isAlpha = false))]
  case h_4 =>
    simp [hne hc (by decide : '*'.isAlpha = false), hne hd (by decide : '*'.isAlpha = false)]
  case h_10 q triple escaped =>
    have hq : q.isAlpha = false := not_isAlpha_of_isQuote hm
    simp [hbreak hc, hbreak hd, hne hc hq, hne hd hq, hne hc (by decide : '\\'.isAlpha = false),
      hne hd (by decide : '\\'.isAlpha = false)]
  all_goals rfl

/-- The scanner goes along with folding, character by character. -/
theorem advance_fold {m : Mode} {s : List Char} (hm : m.Expects (c :: s)) :
    advance m c.toLower (fold s) = advance m c s := by
  have hrest : advance m c s = advance m c (fold s) := by
    refine advance_congr hm ?_ ?_ ?_ ?_
    · exact fun _ => (head?_fold (by decide)).symm
    · exact fun _ => (head?_fold (by decide)).symm
    · exact fun _ _ => (head?_fold (by decide)).symm
    · exact fun hquote => (take_two_fold (not_isAlpha_of_isQuote hquote)).symm
  cases hc : c.isAlpha with
  | false => rw [toLower_of_not_isAlpha hc, hrest]
  | true => rw [hrest, advance_letter hm hc ((Char.isAlpha_toLower_eq_isAlpha c).trans hc)]

/-- **Scanning a folded text** keeps what scanning the text keeps, folded. -/
theorem scan_fold {m : Mode} (hm : m.Expects cs) : scan m (fold cs) = (scan m cs).map fold := by
  induction cs generalizing m with
  | nil =>
    simp only [fold, List.map_nil, scan]
    split <;> rfl
  | cons c cs ih =>
    have hcons : fold (c :: cs) = c.toLower :: fold cs := rfl
    rw [hcons, scan, scan, advance_fold hm]
    cases hadvance : advance m c cs with
    | none => rfl
    | some r =>
      obtain ⟨kept, next⟩ := r
      simp only [ih (hm.advance hadvance), Option.map_map]
      cases kept <;> rfl

theorem uncommented_fold (cs : List Char) : uncommented (fold cs) = (uncommented cs).map fold :=
  scan_fold trivial

theorem dropWhile_fold {p : Char → Bool} (hp : ∀ c, p c.toLower = p c) (cs : List Char) :
    (fold cs).dropWhile p = fold (cs.dropWhile p) := by
  rw [fold, List.dropWhile_map]
  simp only [Function.comp_def, hp]
  rfl

theorem isBlank_toLower (c : Char) : isBlank c.toLower = isBlank c :=
  class_toLower (fun _ => not_isAlpha_of_isBlank) c

theorem isAsciiBlank_toLower (c : Char) : isAsciiBlank c.toLower = isAsciiBlank c :=
  class_toLower (fun _ h => not_isAlpha_of_isBlank (isBlank_of_isAsciiBlank h)) c

theorem trimEnd_fold (cs : List Char) : trimEnd (fold cs) = fold (trimEnd cs) := by
  have hreverse : ∀ l : List Char, (fold l).reverse = fold l.reverse := fun l => List.map_reverse.symm
  rw [trimEnd, hreverse, dropWhile_fold isBlank_toLower, hreverse, trimEnd]

theorem dropTerminator_fold (cs : List Char) : dropTerminator (fold cs) = fold (dropTerminator cs) := by
  have hlast : (fold cs).getLast? = some ';' ↔ cs.getLast? = some ';' := by
    rw [← List.head?_reverse, ← List.head?_reverse, fold, ← List.map_reverse]
    exact head?_fold (by decide)
  unfold dropTerminator
  by_cases h : cs.getLast? = some ';'
  · rw [if_pos h, if_pos (hlast.2 h)]
    exact List.map_dropLast.symm
  · rw [if_neg h, if_neg fun hin => h (hlast.1 hin)]

theorem finish_fold (kept : List Char) : finish (fold kept) = fold (finish kept) := by
  rw [finish, trimEnd_fold, dropTerminator_fold, trim, dropWhile_fold isBlank_toLower, trimEnd_fold]
  rfl

theorem spellsQuery_fold (cs : List Char) : spellsQuery (fold cs) = spellsQuery cs := by
  have hword : ∀ w, startsWithFold w (fold cs) = startsWithFold w cs := by
    intro w
    have htake : (fold cs).take w.length = fold (cs.take w.length) := List.map_take.symm
    rw [startsWithFold, startsWithFold, htake, sameFold, sameFold, fold_fold]
  simp only [spellsQuery, hword]

theorem splitAtQuery?_fold (cs : List Char) :
    splitAtQuery? (fold cs) = (splitAtQuery? cs).map (Prod.map fold fold) := by
  induction cs with
  | nil => rfl
  | cons c cs ih =>
    have hcons : fold (c :: cs) = c.toLower :: fold cs := rfl
    rw [hcons, splitAtQuery?, ← hcons, spellsQuery_fold, splitAtQuery?]
    split
    · rfl
    · rw [ih, Option.map_map, Option.map_map]
      rfl

theorem splitAtLast?_fold (hd : d.isAlpha = false) (cs : List Char) :
    splitAtLast? d (fold cs) = (splitAtLast? d cs).map (Prod.map fold fold) := by
  induction cs with
  | nil => rfl
  | cons c cs ih =>
    have hcons : fold (c :: cs) = c.toLower :: fold cs := rfl
    rw [hcons, splitAtLast?, splitAtLast?, ih]
    cases splitAtLast? d cs with
    | some p => rfl
    | none =>
      simp only [Option.map_none, toLower_eq_iff hd]
      split <;> rfl

theorem mem_fold (hd : d.isAlpha = false) : d ∈ fold cs ↔ d ∈ cs := by
  simp [fold, toLower_eq_iff hd]

/-- **What follows the hint of a folded text.** -/
theorem behindHint?_fold (cs : List Char) : behindHint? (fold cs) = (behindHint? cs).map fold := by
  have hclose : '\x7d'.isAlpha = false := by decide
  have hopen : '\x7b'.isAlpha = false := by decide
  unfold behindHint?
  rw [splitAtQuery?_fold]
  cases splitAtQuery? cs with
  | none => rfl
  | some p =>
    obtain ⟨head, query⟩ := p
    simp only [Option.map_some, Prod.map, splitAtLast?_fold hclose]
    cases splitAtLast? '\x7d' head with
    | none => rfl
    | some q =>
      obtain ⟨hint, gap⟩ := q
      simp only [Option.map_some, Prod.map, mem_fold hopen, ← fold_append]
      split <;> rfl

theorem takeWhile_fold {p : Char → Bool} (hp : ∀ c, p c.toLower = p c) (cs : List Char) :
    (fold cs).takeWhile p = fold (cs.takeWhile p) := by
  rw [fold, List.takeWhile_map]
  simp only [Function.comp_def, hp]
  rfl

/-- The first token of a folded text is the token, folded. -/
theorem word?_fold (cs : List Char) :
    word? isAsciiBlank (fold cs) = (word? isAsciiBlank cs).map (Prod.map fold fold) := by
  let solid : Char → Bool := fun c => !isAsciiBlank c
  have hsolid : ∀ c, solid c.toLower = solid c := fun c => congrArg not (isAsciiBlank_toLower c)
  unfold word?
  rw [dropWhile_fold isAsciiBlank_toLower]
  cases cs.dropWhile isAsciiBlank with
  | nil => rfl
  | cons c r =>
    have htake := takeWhile_fold hsolid (c :: r)
    have hdrop := dropWhile_fold hsolid (c :: r)
    exact congrArg some (Prod.ext htake hdrop)

theorem opensWith_fold (words : List (List Char)) (cs : List Char) :
    opensWith words (String.ofList (fold cs)) = opensWith words (String.ofList cs) := by
  rw [opensWith, opensWith, String.toList_ofList, String.toList_ofList, word?_fold]
  cases word? isAsciiBlank cs with
  | none => rfl
  | some r => simp [sameFold, fold_fold]

end Fold

section SameName

variable {a b : String}

theorem fold_of_sameName (h : sameName a b = true) : fold a.toList = fold b.toList :=
  eq_of_beq h

theorem sameName_ofList {x y : List Char} (h : fold x = fold y) :
    sameName (String.ofList x) (String.ofList y) = true := by
  simp [sameName, sameFold, h]

/-- Two outcomes that agree: both are failures, or both are results and these are related. -/
inductive Agree {α : Type} (R : α → α → Prop) : Except DbError α → Except DbError α → Prop where
  | failed (e e' : DbError) : Agree R (.error e) (.error e')
  | done {x y : α} (h : R x y) : Agree R (.ok x) (.ok y)

theorem Agree.map {α β : Type} {R : α → α → Prop} {S : β → β → Prop} {x y : Except DbError α}
    (h : Agree R x y) {f g : α → β} (hfg : ∀ {u v}, R u v → S (f u) (g v)) :
    Agree S (x.map f) (y.map g) := by
  cases h with
  | failed e e' => exact .failed e e'
  | done h => exact .done (hfg h)

theorem Agree.refl {α : Type} {R : α → α → Prop} (hR : ∀ a, R a a) (r : Except DbError α) :
    Agree R r r := by
  cases r with
  | error e => exact .failed e e
  | ok a => exact .done (hR a)

theorem Agree.imp {α : Type} {R S : α → α → Prop} {x y : Except DbError α} (h : Agree R x y)
    (hRS : ∀ {u v}, R u v → S u v) : Agree S x y := by
  cases h with
  | failed e e' => exact .failed e e'
  | done h => exact .done (hRS h)

/-- What is the same for the folded texts is found in both or in neither. -/
theorem agree_of_map_fold {x y : Option (List Char)} (h : x.map fold = y.map fold) :
    x = none ∧ y = none ∨ ∃ cs ds, x = some cs ∧ y = some ds ∧ fold cs = fold ds := by
  cases x with
  | none =>
    cases y with
    | none => exact Or.inl ⟨rfl, rfl⟩
    | some ds => cases h
  | some cs =>
    cases y with
    | none => cases h
    | some ds => exact Or.inr ⟨cs, ds, rfl, rfl, Option.some.inj h⟩

theorem clean?_fold (cs : List Char) : clean? (fold cs) = (clean? cs).map fold := by
  rw [clean?, uncommented_fold, clean?, Option.map_map, Option.map_map]
  congr 1
  funext kept
  exact finish_fold kept

theorem clean_sameName (h : sameName a b = true) :
    Agree (fun x y => sameName x y = true) (clean a) (clean b) := by
  have hclean : (clean? a.toList).map fold = (clean? b.toList).map fold := by
    rw [← clean?_fold, ← clean?_fold, fold_of_sameName h]
  unfold clean
  rcases agree_of_map_fold hclean with ⟨ha, hb⟩ | ⟨cs, ds, ha, hb, hfold⟩
  · rw [ha, hb]
    exact .failed _ _
  · rw [ha, hb]
    exact .done (sameName_ofList hfold)

/-- **Hints are taken off alike**, or on both sides what stands behind cannot be cleaned. -/
theorem stripHint_sameName (h : sameName a b = true) :
    Agree (fun x y => sameName x y = true) (stripHint a) (stripHint b) := by
  have hbehind : (behindHint? a.toList).map fold = (behindHint? b.toList).map fold := by
    rw [← behindHint?_fold, ← behindHint?_fold, fold_of_sameName h]
  unfold stripHint
  rcases agree_of_map_fold hbehind with ⟨ha, hb⟩ | ⟨cs, ds, ha, hb, hfold⟩
  · rw [ha, hb]
    exact .done h
  · rw [ha, hb]
    exact clean_sameName (sameName_ofList hfold)

theorem opensWith_sameName (words : List (List Char)) (h : sameName a b = true) :
    opensWith words a = opensWith words b := by
  have hfold := congrArg (fun cs => opensWith words (String.ofList cs)) (fold_of_sameName h)
  simpa [opensWith_fold] using hfold

/-- **Cleaned texts are of the same kind**, whatever the case of their letters. -/
theorem kindOf_sameName (h : sameName a b = true) : Agree (· = ·) (kindOf a) (kindOf b) := by
  have hquery : Agree (· = ·) (isQuery a) (isQuery b) := by
    have hat : a.toList.head? = some '@' ↔ b.toList.head? = some '@' := by
      have hnot : '@'.isAlpha = false := by decide
      rw [← head?_fold hnot, fold_of_sameName h, head?_fold hnot]
    unfold isQuery
    by_cases ha : a.toList.head? = some '@'
    · rw [if_pos ha, if_pos (hat.1 ha)]
      exact (stripHint_sameName h).map (opensWith_sameName queryWords)
    · rw [if_neg ha, if_neg fun hb => ha (hat.2 hb)]
      exact .done (opensWith_sameName queryWords h)
  refine hquery.map fun huv => ?_
  rw [huv, isUpdate, isSchemaChange, opensWith_sameName updateWords h,
    opensWith_sameName schemaWords h]
  rfl

/-- **The case of letters does not matter.** Two texts that are equal up to the case of ASCII letters are
both classified or both refused; if they are classified, they are of the same kind, and their cleaned
texts are equal up to case again. So are what is left of the texts when hints are taken off, unless that
fails for both. -/
theorem case_does_not_matter (h : sameName a b = true) :
    Agree (fun x y => x.kind = y.kind ∧ sameName x.sql y.sql = true) (classify a) (classify b) ∧
      Agree (fun x y => sameName x y = true) (stripHint a) (stripHint b) := by
  refine ⟨?_, stripHint_sameName h⟩
  have hclean := clean_sameName h
  unfold classify
  generalize clean a = x, clean b = y at hclean
  cases hclean with
  | failed e e' => exact .failed e e'
  | @done s t hst =>
    have hkind := kindOf_sameName hst
    simp only [bind, Except.bind]
    generalize kindOf s = k, kindOf t = l at hkind
    cases hkind with
    | failed e e' => exact .failed e e'
    | done hkl => exact .done ⟨hkl, hst⟩

/-- A hint in front of the query, a literal and a comment. -/
theorem hinted_case :
    let a := "/* Q */ @\x7bForce_Index=A\x7d sElEcT 'b' -- C"
    let b := "/* q */ @\x7bFORCE_INDEX=a\x7d Select 'B' -- c"
    sameName a b = true ∧
      Agree (fun x y => x.kind = y.kind ∧ sameName x.sql y.sql = true) (classify a) (classify b) ∧
      Agree (fun x y => sameName x y = true) (stripHint a) (stripHint b) ∧
      classify a = .ok ⟨.query, "@\x7bForce_Index=A\x7d sElEcT 'b'"⟩ ∧
      stripHint b = .ok "Select 'B'" := by
  intro a b
  have hsame : sameName a b = true := by decide +kernel
  obtain ⟨hclassify, hstrip⟩ := case_does_not_matter hsame
  exact ⟨hsame, hclassify, hstrip, by simp only [a]; rfl, by simp only [b]; rfl⟩

end SameName

end DeferredTx.Statement
