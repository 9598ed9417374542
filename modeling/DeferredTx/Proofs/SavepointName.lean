import DeferredTx.Savepoint
import DeferredTx.Text.Ascii

/-!
# Names of savepoints

* `checkName_eq_ok_iff`: the names that may be put into SQL text.
* `IsIdentifier`, `checkName_iff_isIdentifier`: they are the identifiers of at most 64 characters.
* `checkName_generated`: the name made from a savepoint's number is one of them.
* `WellChosen`, `WellChosen.pairwise`: **when savepoints have different names**.
-/

namespace DeferredTx.Savepoint

theorem range_of_isAlpha {c : Char} (h : c.isAlpha = true) :
    65 ≤ c.val ∧ c.val ≤ 90 ∨ 97 ≤ c.val ∧ c.val ≤ 122 := by
  have hcase : c.isUpper = true ∨ c.isLower = true := (Bool.or_eq_true _ _).mp h
  rcases hcase with hupper | hlower
  · exact Or.inl (of_decide_eq_true hupper)
  · have hboth := (Bool.and_eq_true _ _).mp hlower
    exact Or.inr ⟨of_decide_eq_true hboth.1, of_decide_eq_true hboth.2⟩

theorem range_of_isDigit {c : Char} (h : c.isDigit = true) : 48 ≤ c.val ∧ c.val ≤ 57 := by
  have hboth := (Bool.and_eq_true _ _).mp h
  exact ⟨of_decide_eq_true hboth.1, of_decide_eq_true hboth.2⟩

theorem isNameChar_iff {c : Char} : isNameChar c = true ↔ c.isAlphanum = true ∨ c = '_' := by
  simp [isNameChar]

theorem utf8Size_of_isNameChar {c : Char} (h : isNameChar c = true) : c.utf8Size = 1 := by
  have hval : c.val ≤ 127 := by
    simp only [isNameChar_iff, Char.isAlphanum, Bool.or_eq_true] at h
    rcases h with (halpha | hdigit) | rfl
    · rcases range_of_isAlpha halpha with ⟨-, hle⟩ | ⟨-, hle⟩
      · exact UInt32.le_trans hle (by decide)
      · exact UInt32.le_trans hle (by decide)
    · exact UInt32.le_trans (range_of_isDigit hdigit).2 (by decide)
    · decide
  simp [Char.utf8Size, hval]

/-- The characters of names are one byte each. -/
theorem utf8ByteSize_of_nameChars : ∀ l : List Char, (∀ c ∈ l, isNameChar c = true) →
    (String.ofList l).utf8ByteSize = l.length
  | [], _ => rfl
  | c :: l, h => by
    have ih := utf8ByteSize_of_nameChars l fun d hd => h d (List.mem_cons_of_mem _ hd)
    have hsize : c.utf8Size = 1 := utf8Size_of_isNameChar (h c List.mem_cons_self)
    rw [String.ofList_cons, String.utf8ByteSize_append, String.utf8ByteSize_singleton, ih, hsize,
      List.length_cons]
    omega

/-- **The names that are accepted**: a letter or underscore, then letters, digits and underscores, in
at most 64 bytes. -/
theorem checkName_eq_ok_iff (name : String) :
    checkName name = .ok () ↔ ∃ c rest, name.toList = c :: rest ∧ isNameChar c = true ∧
      c.isDigit = false ∧ rest.all isNameChar = true ∧ name.utf8ByteSize ≤ maxNameBytes := by
  unfold checkName
  cases hl : name.toList with
  | nil => simp
  | cons c rest =>
    simp only [List.cons_ne_nil, if_false, List.all_cons, Bool.and_eq_true]
    by_cases hlong : maxNameBytes < name.utf8ByteSize
    · rw [if_pos hlong]
      refine ⟨nofun, ?_⟩
      rintro ⟨_, _, -, -, -, -, hshort⟩
      omega
    rw [if_neg hlong]
    by_cases hchars : isNameChar c = true ∧ rest.all isNameChar = true
    · rw [if_pos hchars]
      by_cases hd : (c :: rest).head?.any Char.isDigit = true
      · rw [if_pos hd]
        refine ⟨nofun, ?_⟩
        rintro ⟨_, _, heq, -, hd', -⟩
        obtain ⟨rfl, rfl⟩ := List.cons.inj heq
        exact absurd ((show c.isDigit = true from hd).symm.trans hd') nofun
      · rw [if_neg hd]
        exact ⟨fun _ => ⟨c, rest, rfl, hchars.1, by simpa using hd, hchars.2, by omega⟩, fun _ => rfl⟩
    · rw [if_neg hchars]
      refine ⟨nofun, ?_⟩
      rintro ⟨_, _, heq, hc, -, hrest, -⟩
      obtain ⟨rfl, rfl⟩ := List.cons.inj heq
      exact absurd ⟨hc, hrest⟩ hchars

/-- An identifier: a letter or underscore, then letters, digits and underscores, in at most 64
characters, all of them ASCII. -/
def IsIdentifier (name : String) : Prop :=
  ∃ c rest, name.toList = c :: rest ∧ (c.isAlpha = true ∨ c = '_') ∧
    (∀ d ∈ rest, d.isAlphanum = true ∨ d = '_') ∧ name.length ≤ 64

/-- The first character of an identifier. -/
theorem isNameChar_and_not_isDigit_iff {c : Char} :
    isNameChar c = true ∧ c.isDigit = false ↔ c.isAlpha = true ∨ c = '_' := by
  rw [isNameChar_iff, Char.isAlphanum]
  constructor
  · rintro ⟨hc, hd⟩
    simpa [hd] using hc
  · rintro (hc | rfl)
    · refine ⟨Or.inl (by simp [hc]), ?_⟩
      cases hd : c.isDigit with
      | false => rfl
      | true =>
        -- letters are above the digits
        obtain ⟨-, hle⟩ := range_of_isDigit hd
        rcases range_of_isAlpha hc with ⟨hge, -⟩ | ⟨hge, -⟩
        · exact absurd (UInt32.le_trans hge hle) (by decide)
        · exact absurd (UInt32.le_trans hge hle) (by decide)
    · decide

/-- **Exactly the identifiers are accepted.** -/
theorem checkName_iff_isIdentifier (name : String) : checkName name = .ok () ↔ IsIdentifier name := by
  have hall (rest : List Char) :
      rest.all isNameChar = true ↔ ∀ d ∈ rest, d.isAlphanum = true ∨ d = '_' := by
    simp only [List.all_eq_true, isNameChar_iff]
  rw [checkName_eq_ok_iff]
  refine exists_congr fun c => exists_congr fun rest => and_congr_right fun hname => ?_
  rw [← hall, ← isNameChar_and_not_isDigit_iff, and_assoc]
  refine and_congr_right fun hc => and_congr_right fun _ => and_congr_right fun hrest => ?_
  have hbytes : name.utf8ByteSize = name.length := by
    have hchars : ∀ d ∈ name.toList, isNameChar d = true := by
      rw [hname]
      exact List.forall_mem_cons.2 ⟨hc, List.all_eq_true.1 hrest⟩
    rw [← String.length_toList, ← utf8ByteSize_of_nameChars _ hchars, String.ofList_toList]
  rw [hbytes]
  rfl

theorem toList_sqlName_of_none (id : UInt32) :
    (sqlName ⟨id, none⟩).toList = 's' :: 'p' :: '_' :: Nat.toDigits 10 id.toNat := by
  show ("sp_" ++ Nat.repr id.toNat).toList = _
  rw [String.toList_append, Nat.toList_repr]
  rfl

/-- The name made from a number is accepted: it has at most ten digits behind its beginning. -/
theorem checkName_generated (id : UInt32) : checkName (sqlName ⟨id, none⟩) = .ok () := by
  have hdigits : ∀ c ∈ Nat.toDigits 10 id.toNat, c.isDigit = true :=
    fun c hc => Nat.isDigit_of_mem_toDigits (by decide) (by decide) hc
  have hlength : (Nat.toDigits 10 id.toNat).length ≤ 10 := by
    rw [Nat.length_toDigits_le_iff (by decide) (by decide)]
    have := id.toNat_lt
    omega
  have hchars : ∀ c ∈ Nat.toDigits 10 id.toNat, isNameChar c = true :=
    fun c hc => isNameChar_iff.2 (Or.inl (by simp [Char.isAlphanum, hdigits c hc]))
  have hsize : (sqlName ⟨id, none⟩).utf8ByteSize = 3 + (Nat.toDigits 10 id.toNat).length := by
    show ("sp_" ++ Nat.repr id.toNat).utf8ByteSize = _
    rw [String.utf8ByteSize_append, Nat.repr_eq_ofList_toDigits, utf8ByteSize_of_nameChars _ hchars]
    rfl
  refine (checkName_eq_ok_iff _).2 ⟨'s', _, toList_sqlName_of_none id, rfl, rfl, ?_, ?_⟩
  · have hall : (Nat.toDigits 10 id.toNat).all isNameChar = true := List.all_eq_true.2 hchars
    simp [List.all_cons, hall]
    decide
  · have hmax : maxNameBytes = 64 := rfl
    omega

/-- The name made from a number has no capital letters. -/
theorem fold_generated (id : UInt32) :
    Text.fold (sqlName ⟨id, none⟩).toList = (sqlName ⟨id, none⟩).toList := by
  have hdigit : ∀ c ∈ Nat.toDigits 10 id.toNat, c.toLower = c := by
    intro c hc
    have hrange := range_of_isDigit (Nat.isDigit_of_mem_toDigits (by decide) (by decide) hc)
    unfold Char.toLower
    refine dif_neg fun hupper => ?_
    exact absurd (UInt32.le_trans hupper.1 hrange.2) (by decide)
  rw [toList_sqlName_of_none, Text.fold, List.map_cons, List.map_cons, List.map_cons,
    List.map_congr_left hdigit, List.map_id']
  rfl

/-- It tells the number, even up to the case of letters. -/
theorem eq_of_sameName_generated {id id' : UInt32}
    (h : Text.sameName (sqlName ⟨id, none⟩) (sqlName ⟨id', none⟩) = true) : id = id' := by
  have hfold := eq_of_beq (show (Text.fold _ == Text.fold _) = true from h)
  rw [fold_generated, fold_generated, toList_sqlName_of_none, toList_sqlName_of_none] at hfold
  simp only [List.cons.injEq, true_and] at hfold
  have hvalue := congrArg (Nat.ofDigitChars 10 · 0) hfold
  simp only [Nat.ofDigitChars_toDigits (by decide : 1 < 10) (by decide : 10 ≤ 10)] at hvalue
  exact UInt32.toNat_inj.1 hvalue

/-- Chosen names are told apart by `same` from each other, and from the names that are made from
numbers. -/
structure WellChosen (same : String → String → Prop) (l : List Savepoint) : Prop where
  apart : (l.filterMap name).Pairwise fun a b => ¬same a b
  free : ∀ s ∈ l, s.name = none → ∀ n ∈ l.filterMap name, ¬same s.sqlName n

/-- **Names in SQL are different** if the numbers are, and the chosen names are told apart. -/
theorem WellChosen.pairwise {same : String → String → Prop} {l : List Savepoint}
    (h : WellChosen same l) (hsymm : ∀ a b, same a b → same b a)
    (hgenerated : ∀ id id', same (sqlName ⟨id, none⟩) (sqlName ⟨id', none⟩) → id = id')
    (hids : (l.map id).Nodup) : (l.map sqlName).Pairwise fun a b => ¬same a b := by
  have hboth := (List.pairwise_map.1 hids).and (List.pairwise_filterMap.1 h.apart)
  refine List.pairwise_map.2 (hboth.imp_of_mem ?_)
  rintro ⟨id, name⟩ ⟨id', name'⟩ hs hs' ⟨hid, hname⟩ hsame
  cases name with
  | none =>
    cases name' with
    | none => exact hid (hgenerated id id' hsame)
    | some n' => exact h.free _ hs rfl n' (List.mem_filterMap.2 ⟨_, hs', rfl⟩) hsame
  | some n =>
    cases name' with
    | none => exact h.free _ hs' rfl n (List.mem_filterMap.2 ⟨_, hs, rfl⟩) (hsymm _ _ hsame)
    | some n' => exact hname n rfl n' rfl hsame

end DeferredTx.Savepoint
