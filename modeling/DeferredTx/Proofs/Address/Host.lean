import DeferredTx.Address.Host

/-!
# Hosts hold no at sign

The at sign ends the user and the password in front of a host, so that no host can hold one. Each way
to read a host sees to that by itself, and to it that a host is not empty.

* `Ipv6.digits_of_read?`: an address in brackets is made of digits, colons and dots.
* `Percent.mem_decodeAscii`: decoding keeps what is no part of an encoded character.
* `Host.read_of_at`: **a host with an at sign is refused**, and what is around it has no part in the
  error but for a bracket in front.
* `Host.render_ne_nil`: a host that is read is not empty when it is written.
-/

namespace DeferredTx.Address

open Text

namespace Ipv6

/-- The characters that addresses are made of. -/
def IsDigit (c : Char) : Prop :=
  (hexDigit? c).isSome = true ∨ c = ':' ∨ c = '.'

theorem not_isDigit_at : ¬IsDigit '@' := by
  simp [IsDigit, hexDigit?]

theorem isDigit_of_isMark {mark c : Char} (hmark : mark = ':' ∨ mark = '.')
    (h : (c == mark) = true) : IsDigit c := by
  rw [beq_iff_eq.1 h]
  exact .inr hmark

/-- A number that is read digit by digit has no other characters. -/
theorem digits_of_foldl {base : Nat} : ∀ {cs : List Char} {acc : Option Nat} {n : Nat},
    cs.foldl (fun acc c => do
      let n ← acc
      let d ← hexDigit? c
      if d < base then some (n * base + d) else none) acc = some n →
    acc.isSome = true ∧ ∀ c ∈ cs, (hexDigit? c).isSome = true
  | [], _, _, h => by
    rw [List.foldl_nil] at h
    exact ⟨by rw [h]; rfl, List.forall_mem_nil _⟩
  | c :: cs, acc, n, h => by
    rw [List.foldl_cons] at h
    obtain ⟨hnext, hrest⟩ := digits_of_foldl h
    -- a character that is no digit would have ended the number
    cases acc with
    | none => cases hnext
    | some m =>
      cases hd : hexDigit? c with
      | none => simp [hd] at hnext
      | some d => exact ⟨rfl, List.forall_mem_cons.2 ⟨by rw [hd]; rfl, hrest⟩⟩

theorem digits_of_number? {base n : Nat} {cs : List Char} (h : number? base cs = some n) :
    ∀ c ∈ cs, IsDigit c := by
  unfold number? at h
  split at h
  · cases h
  · exact fun c hc => .inl ((digits_of_foldl h).2 c hc)

theorem digits_of_group? {n : Nat} {cs : List Char} (h : group? cs = some n) : ∀ c ∈ cs, IsDigit c := by
  unfold group? at h
  split at h
  · exact digits_of_number? h
  · cases h

theorem digits_of_byte? {n : Nat} {cs : List Char} (h : byte? cs = some n) : ∀ c ∈ cs, IsDigit c := by
  unfold byte? at h
  split at h
  · exact digits_of_number? (Option.filter_eq_some_iff.1 h).1
  · cases h

theorem digits_of_splitAll {mark : Char} (hmark : mark = ':' ∨ mark = '.') {cs : List Char}
    (h : ∀ part ∈ splitAll (· == mark) cs, ∀ c ∈ part, IsDigit c) : ∀ c ∈ cs, IsDigit c := by
  intro c hc
  rcases mem_splitAll (· == mark) hc with hm | ⟨part, hpart, hmem⟩
  · exact isDigit_of_isMark hmark hm
  · exact h part hpart c hmem

theorem digits_of_dotted? {gs : List Nat} {cs : List Char} (h : dotted? cs = some gs) :
    ∀ c ∈ cs, IsDigit c := by
  refine digits_of_splitAll (.inr rfl) fun part hpart => ?_
  -- four parts are read, and there are no others
  have hbytes : ∃ n, byte? part = some n := by
    unfold dotted? at h
    split at h
    · rename_i hparts
      have hmem : byte? part ∈ (splitAll (· == '.') cs).map byte? := List.mem_map_of_mem hpart
      rw [hparts] at hmem
      simp only [List.mem_cons, List.not_mem_nil, or_false] at hmem
      rcases hmem with h | h | h | h <;> exact ⟨_, h⟩
    · cases h
  obtain ⟨n, hn⟩ := hbytes
  exact digits_of_byte? hn

theorem digits_of_groups? : ∀ {parts : List (List Char)} {gs : List Nat}, groups? parts = some gs →
    ∀ part ∈ parts, ∀ c ∈ part, IsDigit c
  | [], _, _, _, hpart => absurd hpart List.not_mem_nil
  | [last], gs, h, part, hpart => by
    obtain rfl := List.mem_singleton.1 hpart
    rw [groups?] at h
    split at h
    · exact digits_of_dotted? h
    · obtain ⟨n, hn, -⟩ := Option.map_eq_some_iff.1 h
      exact digits_of_group? hn
  | g :: g' :: rest, gs, h, part, hpart => by
    simp only [groups?, Option.bind_eq_bind, Option.bind_eq_some_iff] at h
    obtain ⟨n, hn, ns, hns, -⟩ := h
    rcases List.mem_cons.1 hpart with rfl | hpart
    · exact digits_of_group? hn
    · exact digits_of_groups? hns part hpart

theorem digits_of_side? {gs : List Nat} {cs : List Char} (h : side? cs = some gs) :
    ∀ c ∈ cs, IsDigit c := by
  unfold side? at h
  split at h
  · rename_i hempty
    rw [List.isEmpty_iff.1 hempty]
    exact List.forall_mem_nil _
  · exact digits_of_splitAll (.inl rfl) (digits_of_groups? h)

theorem eq_of_splitAtGap? : ∀ {cs left right : List Char}, splitAtGap? cs = some (left, right) →
    cs = left ++ ':' :: ':' :: right
  | [], _, _, h => by cases h
  | c :: r, left, right, h => by
    rw [splitAtGap?] at h
    split at h
    · rename_i hgap
      obtain ⟨rfl, hnext⟩ := hgap
      obtain ⟨next, hr⟩ : ∃ next, r = ':' :: next := List.head?_eq_some_iff.1 hnext
      cases h
      rw [hr]
      rfl
    · obtain ⟨⟨front, back⟩, hcut, hpair⟩ := Option.map_eq_some_iff.1 h
      cases hpair
      rw [eq_of_splitAtGap? hcut]
      rfl

/-- An address is made of digits, colons and dots. -/
theorem digits_of_read? {gs : List Nat} {cs : List Char} (h : read? cs = some gs) :
    ∀ c ∈ cs, IsDigit c := by
  unfold read? at h
  split at h
  · exact digits_of_splitAll (.inl rfl) (digits_of_groups? (Option.filter_eq_some_iff.1 h).1)
  · rename_i left right hgap
    split at h
    · cases h
    · simp only [Option.bind_eq_bind, Option.bind_eq_some_iff] at h
      obtain ⟨l, hl, r, hr, -⟩ := h
      have hcolon : IsDigit ':' := .inr (.inl rfl)
      rw [eq_of_splitAtGap? hgap, List.forall_mem_append, List.forall_mem_cons, List.forall_mem_cons]
      exact ⟨digits_of_side? hl, hcolon, hcolon, digits_of_side? hr⟩

end Ipv6

namespace Percent

/-- Decoding keeps a character that is no part of an encoded one. -/
theorem mem_decodeAscii {c : Char} {cs : List Char} (hpercent : c ≠ '%')
    (hdigit : hexDigit? c = none) (h : c ∈ cs) : c ∈ decodeAscii cs := by
  have hrest : ∀ {d : Char} {r : List Char}, c ∈ d :: r → (c ∈ r → c ∈ decodeAscii r) →
      c ∈ d :: decodeAscii r := fun hmem ih =>
    (List.mem_cons.1 hmem).elim (fun heq => heq ▸ List.mem_cons_self) fun hr =>
      List.mem_cons_of_mem _ (ih hr)
  -- only `case2` replaces characters, a percent sign and two digits
  induction cs using decodeAscii.induct with
  | case1 => exact h
  | case2 a b r x y hb ha hx ih =>
    rw [decodeAscii, if_pos rfl]
    simp only [ha, hb, if_pos hx]
    -- the three characters of the encoded one are others
    have hr : c ∈ r := by
      have hca : c ≠ a := fun heq => by simp [← heq, hdigit] at ha
      have hcb : c ≠ b := fun heq => by simp [← heq, hdigit] at hb
      simpa [hpercent, hca, hcb] using h
    exact List.mem_cons_of_mem _ (ih hr)
  | case3 a b r x y hb ha hx ih =>
    rw [decodeAscii, if_pos rfl]
    simp only [ha, hb, if_neg hx]
    exact hrest h ih
  | case4 a b r hnone ih =>
    rw [decodeAscii, if_pos rfl]
    split
    · exact (hnone _ _ ‹_› ‹_›).elim
    · exact hrest h ih
  | case5 a ih =>
    rw [decodeAscii, if_pos rfl]
    exact hrest h ih
  | case6 => exact h
  | case7 d r hd ih =>
    rw [decodeAscii.eq_def]
    simp only [if_neg hd]
    exact hrest h ih

theorem encode_ne_nil (chars : Char → Bool) {cs : List Char} (h : cs ≠ []) : encode chars cs ≠ [] := by
  obtain ⟨c, cs, rfl⟩ := List.exists_cons_of_ne_nil h
  have hbytes : String.utf8EncodeChar c ≠ [] :=
    List.length_pos_iff.1 (by rw [String.length_utf8EncodeChar]; exact c.utf8Size_pos)
  rw [encode, List.flatMap_cons]
  refine List.append_ne_nil_of_left_ne_nil ?_ _
  split
  · obtain ⟨b, bytes, hcons⟩ := List.exists_cons_of_ne_nil hbytes
    rw [hcons, List.flatMap_cons]
    exact List.cons_ne_nil _ _
  · exact List.cons_ne_nil _ _

end Percent

namespace Host

theorem bracketed_of_at {cs : List Char} (h : '@' ∈ cs.drop 1) : bracketed cs = .error .badIpv6 := by
  unfold bracketed
  split
  · rename_i hlast
    have hinner : '@' ∈ (cs.drop 1).dropLast := by
      obtain ⟨front, rfl⟩ := List.getLast?_eq_some_iff.1 hlast
      cases front with
      | nil => simp at h
      | cons c front => simpa using h
    cases hread : Ipv6.read? (cs.drop 1).dropLast with
    | none => rfl
    | some gs => exact absurd (Ipv6.digits_of_read? hread '@' hinner) Ipv6.not_isDigit_at
  · rfl

theorem domain_of_at {cs : List Char} (h : '@' ∈ cs) : domain cs = .error .badDomain := by
  have hdecoded : '@' ∈ Percent.decodeAscii cs := Percent.mem_decodeAscii (by decide) (by decide) h
  have hfold : '@' ∈ fold (Percent.decodeAscii cs) := List.mem_map.2 ⟨'@', hdecoded, rfl⟩
  unfold domain
  rw [if_pos]
  exact List.any_eq_true.2 ⟨'@', hfold, by decide⟩

/-- **A host holds no at sign.** -/
theorem read_of_at (special : Bool) {cs : List Char} (h : '@' ∈ cs) :
    read special cs = .error (if cs.head? = some '[' then .badIpv6
      else if special then .badDomain else .badHostCharacter) := by
  unfold read
  by_cases hbracket : cs.head? = some '['
  · have hdrop : '@' ∈ cs.drop 1 := by
      obtain ⟨rest, rfl⟩ := List.head?_eq_some_iff.1 hbracket
      simpa using h
    rw [if_pos hbracket, if_pos hbracket, bracketed_of_at hdrop]
  · have hany : cs.any isForbidden = true := List.any_eq_true.2 ⟨'@', h, by decide⟩
    rw [if_neg hbracket, if_neg hbracket, domain_of_at h, hany]
    cases special <;> rfl

/-- What is read as a host is not empty when it is written. -/
theorem render_ne_nil {special : Bool} {cs : List Char} {host : Host} (hne : cs ≠ [])
    (h : read special cs = .ok host) : host.render ≠ [] := by
  unfold read at h
  split at h
  · unfold bracketed at h
    repeat' split at h
    all_goals cases h
    exact List.cons_ne_nil _ _
  · split at h
    · unfold domain at h
      dsimp only at h
      repeat' split at h
      all_goals cases h
      · simp [render, Ipv4.render, List.intercalate]
      · rename_i hempty _
        simpa [render] using hempty
    · split at h
      · cases h
      · cases h
        exact Percent.encode_ne_nil _ hne

end Host

end DeferredTx.Address
