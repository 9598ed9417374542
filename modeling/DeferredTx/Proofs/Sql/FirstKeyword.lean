import DeferredTx.Proofs.Sql.Opening
import DeferredTx.Proofs.Statement.FirstWord
import DeferredTx.Proofs.Statement.Reading

/-!
# Keywords as the first words of cleaned texts

* `isSolid_of_opening`, `isPlain_of_opening`: a keyword is untouched by trimming, and read as it is.
* `kindOf_append`: **a cleaned text that begins with the keyword of a statement has its kind.**
-/

namespace DeferredTx.Sql

open DeferredTx.Statement
open Text

variable {word : String} {kind : Kind} {w y : List Char}

/-- A blank is no letter. -/
theorem toLower_of_isBlank {c : Char} (h : isBlank c = true) : c.toLower = c := by
  have hupper : ¬ (65 ≤ c.toNat ∧ c.toNat ≤ 90) := by
    simp only [isBlank, Bool.or_eq_true, Bool.and_eq_true, decide_eq_true_eq, beq_iff_eq] at h
    omega
  unfold Char.toLower
  exact dif_neg hupper

/-- A class of characters without letters does not occur in a keyword, whatever its case. -/
theorem not_mem_keyword {p : Char → Bool} (hp : ∀ c, p c = true → c.toLower = c)
    (hkeywords : openings.all (fun o => !(fold o.1.toList).any p) = true)
    (hmem : (word, kind) ∈ openings) (hw : sameFold w word.toList = true) :
    ∀ c ∈ w, p c = false := by
  intro c hc
  have hfold : fold w = fold word.toList := by simpa [sameFold] using hw
  have hnone : (fold word.toList).any p = false := by
    simpa using List.all_eq_true.1 hkeywords _ hmem
  cases hpc : p c with
  | false => rfl
  | true =>
    have hlower : c.toLower ∈ fold word.toList := hfold ▸ List.mem_map_of_mem hc
    rw [hp c hpc] at hlower
    exact absurd hpc (List.any_eq_false.1 hnone c hlower)

/-- A keyword, in any case, is untouched by trimming. -/
theorem isSolid_of_opening (hmem : (word, kind) ∈ openings) (hw : sameFold w word.toList = true) :
    IsSolid w := by
  have hne : ∀ o ∈ openings, fold o.1.toList ≠ [] := by decide +kernel
  have hstop : ∀ c, (c == ';') = true → c.toLower = c := by
    intro c hc
    rw [beq_iff_eq.1 hc]
    rfl
  refine ⟨?_, not_mem_keyword (fun c => toLower_of_isBlank) (by decide +kernel) hmem hw, ?_⟩
  · rintro rfl
    have hfold : fold [] = fold word.toList := by simpa [sameFold] using hw
    exact hne _ hmem hfold.symm
  · intro c hc
    simpa using not_mem_keyword hstop (by decide +kernel) hmem hw c hc

/-- A keyword, in any case, opens neither a literal nor a comment. -/
theorem isPlain_of_opening (hmem : (word, kind) ∈ openings) (hw : sameFold w word.toList = true) :
    w.all isPlain = true := by
  have hlower : ∀ c, (!isPlain c) = true → c.toLower = c := by
    intro c hc
    simp only [isPlain, isQuote, Bool.not_not, Bool.or_eq_true, beq_iff_eq] at hc
    rcases hc with ((((rfl | rfl) | rfl) | rfl) | rfl) | rfl <;> rfl
  refine List.all_eq_true.2 fun c hc => ?_
  simpa using not_mem_keyword hlower (by decide +kernel) hmem hw c hc

/-- A keyword, in any case, opens no hint. -/
theorem ne_at_of_opening (hmem : (word, kind) ∈ openings) (hw : sameFold w word.toList = true) :
    ∀ c ∈ w, c ≠ '@' := by
  have hkeyword : ∀ c, (c == '@') = true → c.toLower = c := by
    intro c hc
    rw [beq_iff_eq.1 hc]
    rfl
  intro c hc
  simpa using not_mem_keyword hkeyword (by decide +kernel) hmem hw c hc

theorem sameFold_left {u v k : List Char} (h : sameFold u v = true) : sameFold u k = sameFold v k := by
  have hfold : fold u = fold v := by simpa [sameFold] using h
  rw [sameFold, sameFold, hfold]

/-- A text that begins with a word is no other word than one that begins so. -/
theorem not_sameFold_append {k z : List Char} (hw : sameFold w word.toList = true)
    (hk : (fold word.toList).isPrefixOf (fold k) = false) : sameFold (w ++ z) k = false := by
  have hfold : fold w = fold word.toList := by simpa [sameFold] using hw
  cases h : sameFold (w ++ z) k with
  | false => rfl
  | true =>
    have heq : fold (w ++ z) = fold k := by simpa [sameFold] using h
    have hprefix : fold word.toList <+: fold k :=
      ⟨fold z, by rw [← heq, ← hfold]; exact (List.map_append ..).symm⟩
    exact absurd (List.isPrefixOf_iff_prefix.2 hprefix) (by simp [hk])

/-- **A cleaned text that begins with the keyword of a statement has its kind**, if an ASCII blank
follows; keywords of statements of no kind need none. -/
theorem kindOf_append (hmem : (word, kind) ∈ openings) (hw : sameFold w word.toList = true)
    (hy : kind ≠ .unknown → ∀ c ∈ y.head?, isAsciiBlank c = true) :
    kindOf (String.ofList (w ++ y)) = .ok kind := by
  have hsolid := isSolid_of_opening hmem hw
  have hat : (String.ofList (w ++ y)).toList.head? ≠ some '@' := by
    cases w with
    | nil => exact absurd rfl hsolid.ne_nil
    | cons c r =>
      have hc : c ≠ '@' := ne_at_of_opening hmem hw c List.mem_cons_self
      simpa using hc
  have hquery : isQuery (String.ofList (w ++ y)) =
      .ok (opensWith queryWords (String.ofList (w ++ y))) := if_neg hat
  rw [kindOf, hquery, isUpdate, isSchemaChange]
  simp only [opensWith_append hsolid]
  by_cases hkind : kind = .unknown
  · -- no word on the lists begins with a keyword of these
    have hlists : ∀ p ∈ openings, p.2 = .unknown → ∀ k ∈ queryWords ++ updateWords ++ schemaWords,
        (fold p.1.toList).isPrefixOf (fold k) = false := by decide +kernel
    have hnone : ∀ words : List (List Char),
        (∀ k ∈ words, k ∈ queryWords ++ updateWords ++ schemaWords) →
        words.any (fun k => sameFold (w ++ y.takeWhile fun c => !isAsciiBlank c) k) = false := by
      intro words hwords
      refine List.any_eq_false.2 fun k hk => ?_
      rw [not_sameFold_append hw (hlists _ hmem hkind k (hwords k hk))]
      exact Bool.false_ne_true
    rw [hnone queryWords fun k hk => by simp [hk], hnone updateWords fun k hk => by simp [hk],
      hnone schemaWords fun k hk => by simp [hk], hkind]
    rfl
  · have hlists : ∀ p ∈ openings, p.2 ≠ .unknown →
        queryWords.any (sameFold p.1.toList) = (p.2 == .query) ∧
        updateWords.any (sameFold p.1.toList) = (p.2 == .update) ∧
        schemaWords.any (sameFold p.1.toList) = (p.2 == .schemaChange) := by decide +kernel
    -- the first word ends with the keyword, so that the lists are asked for the keyword itself
    have hnothing : (y.takeWhile fun c => !isAsciiBlank c) = [] := by
      cases y with
      | nil => rfl
      | cons c y => exact List.takeWhile_cons_of_neg (by simp [hy hkind c rfl])
    obtain ⟨hq, hu, hs⟩ := hlists _ hmem hkind
    have hsame : ∀ k, sameFold w k = sameFold word.toList k := fun k => sameFold_left hw
    simp only [hnothing, List.append_nil, hsame]
    rw [hq, hu, hs]
    cases kind with
    | unknown => exact absurd rfl hkind
    | query | update | schemaChange => rfl

end DeferredTx.Sql
