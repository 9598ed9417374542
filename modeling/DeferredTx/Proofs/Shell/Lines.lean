import DeferredTx.Shell.Script

/-!
# The lines of a script

A script is read as bytes, cut at the bytes of line feeds, and decoded line by line. For a text in
UTF-8 that comes to the same as cutting the text at its line feeds.

* `Lines`: the lines of a text. A carriage return in front of a line feed belongs to the line feed.
* `exists_lines`: every text has lines.
* `readLines_of_lines`: **a script in UTF-8 is read as the lines of its text.**
-/

namespace DeferredTx.Shell

open Text

/-- The lines of a text, each ended by a line feed or by a carriage return and a line feed. The last
one needs no end, if it is not empty. -/
inductive Lines : List Char → List (List Char) → Prop where
  | nil : Lines [] []
  | last {l : List Char} : l ≠ [] → '\n' ∉ l → Lines l [l]
  | feed {l rest : List Char} {ls : List (List Char)} : '\n' ∉ l → l.getLast? ≠ some '\r' →
    Lines rest ls → Lines (l ++ '\n' :: rest) (l :: ls)
  | returnFeed {l rest : List Char} {ls : List (List Char)} : '\n' ∉ l → Lines rest ls →
    Lines (l ++ '\r' :: '\n' :: rest) (l :: ls)

/-- A line with its line feed in front of a text that has lines. -/
theorem Lines.cons {l rest : List Char} {ls : List (List Char)} (hl : '\n' ∉ l) (h : Lines rest ls) :
    ∃ first, Lines (l ++ '\n' :: rest) (first :: ls) := by
  by_cases hreturn : l.getLast? = some '\r'
  · obtain ⟨front, rfl⟩ := List.getLast?_eq_some_iff.1 hreturn
    refine ⟨front, ?_⟩
    rw [List.append_assoc]
    exact .returnFeed (fun hmem => hl (List.mem_append_left _ hmem)) h
  · exact ⟨l, .feed hl hreturn h⟩

section Bytes

/-- The bytes of a text. -/
def encode (cs : List Char) : List UInt8 :=
  cs.flatMap String.utf8EncodeChar

theorem encode_append (a b : List Char) : encode (a ++ b) = encode a ++ encode b :=
  List.flatMap_append

/-- A character is one byte below 128, or several from there on. -/
theorem utf8EncodeChar_cases (c : Char) :
    (c.toNat < 128 ∧ String.utf8EncodeChar c = [UInt8.ofNat c.toNat]) ∨
      (128 ≤ c.toNat ∧ ∀ b ∈ String.utf8EncodeChar c, 128 ≤ b.toNat) := by
  have hvalue : c.toNat = c.val.toNat := rfl
  unfold String.utf8EncodeChar
  dsimp only
  split
  · refine Or.inl ⟨?_, rfl⟩
    omega
  · refine Or.inr ⟨by omega, ?_⟩
    split
    · simp
      omega
    · split <;> simp <;> omega

/-- A byte below 128 stands for the character of that number, and for nothing else. -/
theorem eq_of_mem_utf8EncodeChar {c d : Char} (hd : d.toNat < 128)
    (h : UInt8.ofNat d.toNat ∈ String.utf8EncodeChar c) : c = d := by
  have hbyte : (UInt8.ofNat d.toNat).toNat = d.toNat := by
    rw [UInt8.toNat_ofNat']
    omega
  rcases utf8EncodeChar_cases c with ⟨hsmall, hc⟩ | ⟨-, hlarge⟩
  · rw [hc, List.mem_singleton] at h
    have hvalue := congrArg UInt8.toNat h
    rw [hbyte, UInt8.toNat_ofNat'] at hvalue
    exact Char.toNat_inj.1 (by omega)
  · have hle := hlarge _ h
    omega

theorem utf8EncodeChar_ne_nil (c : Char) : String.utf8EncodeChar c ≠ [] := by
  intro h
  have hlength := String.length_utf8EncodeChar c
  have hpos := c.utf8Size_pos
  rw [h] at hlength
  simp at hlength
  omega

theorem not_mem_encode {cs : List Char} (h : '\n' ∉ cs) : (10 : UInt8) ∉ encode cs := by
  intro hmem
  obtain ⟨c, hc, hbyte⟩ := List.mem_flatMap.1 hmem
  exact h (eq_of_mem_utf8EncodeChar (d := '\n') (by decide) hbyte ▸ hc)

theorem getLast?_encode {cs : List Char} (h : cs.getLast? ≠ some '\r') :
    (encode cs).getLast? ≠ some 13 := by
  intro hlast
  rcases List.eq_nil_or_concat cs with rfl | ⟨front, c, rfl⟩
  · cases hlast
  · have hone : encode [c] = String.utf8EncodeChar c := List.append_nil _
    have hne := utf8EncodeChar_ne_nil c
    rw [List.concat_eq_append, encode_append, hone, List.getLast?_append,
      List.getLast?_eq_some_getLast hne, Option.some_or] at hlast
    have hmem := List.getLast_mem hne
    rw [Option.some.inj hlast] at hmem
    obtain rfl := eq_of_mem_utf8EncodeChar (d := '\r') (by decide) hmem
    exact h (by simp)

/-- What has been encoded can be decoded. -/
theorem fromUTF8?_encode (cs : List Char) :
    String.fromUTF8? ⟨(encode cs).toArray⟩ = some (String.ofList cs) := by
  have hbytes : (⟨(encode cs).toArray⟩ : ByteArray) = List.utf8Encode cs := by
    rw [ByteArray.ext_iff, ← Array.toList_inj, List.utf8Encode, List.toList_data_toByteArray, encode]
  unfold String.fromUTF8?
  rw [dif_pos ⟨cs, hbytes⟩]
  refine congrArg some (String.toByteArray_inj.1 ?_)
  exact hbytes

end Bytes

section Cut

variable {l rest : List UInt8}

theorem isFeed_eq_false (hl : (10 : UInt8) ∉ l) : ∀ b ∈ l, (b == 10) = false := by
  intro b hb
  refine beq_false_of_ne fun heq => hl ?_
  rwa [← heq]

/-- The line that a line feed ends loses a carriage return at its end. -/
theorem byteLines_feed (hl : (10 : UInt8) ∉ l) :
    byteLines (l ++ 10 :: rest) =
      (if l.getLast? = some 13 then l.dropLast else l) :: byteLines rest := by
  have hparts : splitAll (· == (10 : UInt8)) (l ++ 10 :: rest) = l :: splitAll (· == 10) rest :=
    splitAll_append_mark (isFeed_eq_false hl) rfl rest
  have hne : splitAll (· == (10 : UInt8)) rest ≠ [] := splitAll_ne_nil rest
  unfold byteLines
  rw [hparts]
  obtain ⟨part, parts, heq⟩ := List.exists_cons_of_ne_nil hne
  simp only [heq, List.dropLast_cons_of_ne_nil (List.cons_ne_nil part parts), List.map_cons,
    List.getLastD_cons]
  split <;> rfl

theorem byteLines_last (hl : (10 : UInt8) ∉ l) (hne : l ≠ []) : byteLines l = [l] := by
  unfold byteLines
  rw [splitAll_of_none (isFeed_eq_false hl)]
  simp [hne]

end Cut

theorem encode_feed (a b : List Char) : encode (a ++ '\n' :: b) = encode a ++ 10 :: encode b :=
  encode_append a ('\n' :: b)

theorem byteLines_encode {cs : List Char} {ls : List (List Char)} (h : Lines cs ls) :
    byteLines (encode cs) = ls.map encode := by
  induction h with
  | nil => rfl
  | @last l hne hl =>
    refine byteLines_last (not_mem_encode hl) fun hnil => ?_
    obtain ⟨c, rest, rfl⟩ := List.exists_cons_of_ne_nil hne
    exact utf8EncodeChar_ne_nil c (List.append_eq_nil_iff.1 hnil).1
  | @feed l rest ls hl hreturn _ ih =>
    rw [encode_feed, byteLines_feed (not_mem_encode hl), if_neg (getLast?_encode hreturn), ih]
    rfl
  | @returnFeed l rest ls hl _ ih =>
    have hends : encode (l ++ '\r' :: '\n' :: rest) = (encode l ++ [13]) ++ 10 :: encode rest := by
      rw [encode_append, List.append_assoc]
      rfl
    have hfree : (10 : UInt8) ∉ encode l ++ [13] := by
      simp [not_mem_encode hl]
    rw [hends, byteLines_feed hfree, ih]
    simp

/-- **A script in UTF-8 is read as the lines of its text**, all of which are valid. -/
theorem readLines_of_lines {cs : List Char} {ls : List (List Char)} (h : Lines cs ls) :
    readLines (encode cs) = (ls.map String.ofList, true) := by
  have hdecoded : ((byteLines (encode cs)).map fun l => String.fromUTF8? ⟨l.toArray⟩) =
      ls.map fun l => some (String.ofList l) := by
    rw [byteLines_encode h, List.map_map]
    exact List.map_congr_left fun l _ => fromUTF8?_encode l
  have hsome : ∀ ls : List (List Char), (ls.map fun l => some (String.ofList l)).takeWhile Option.isSome =
      ls.map fun l => some (String.ofList l) := by
    intro ls
    induction ls with
    | nil => rfl
    | cons l ls ih => exact congrArg (some (String.ofList l) :: ·) ih
  unfold readLines
  simp only [hdecoded, hsome, List.filterMap_map]
  simp [Function.comp_def]

theorem toList_loop (bytes : ByteArray) (i : Nat) (acc : List UInt8) :
    ByteArray.toList.loop bytes i acc = acc.reverse ++ bytes.data.toList.drop i := by
  fun_induction ByteArray.toList.loop bytes i acc with
  | case1 i acc hlt ih =>
    have hin : i < bytes.data.toList.length := by simpa using hlt
    rw [ih, List.drop_eq_getElem_cons hin]
    simp [ByteArray.get!, hlt]
  | case2 i acc hge =>
    have hout : bytes.data.toList.length ≤ i := by simpa using hge
    rw [List.drop_eq_nil_of_le hout, List.append_nil]

/-- The bytes of a string are those of its characters. -/
theorem toList_toUTF8 (s : String) : s.toUTF8.toList = encode s.toList := by
  have hbytes : s.toUTF8 = List.utf8Encode s.toList := by
    rw [String.toUTF8_eq_toByteArray, ← String.toByteArray_ofList, String.ofList_toList]
  rw [hbytes, ByteArray.toList, toList_loop, List.utf8Encode, List.toList_data_toByteArray]
  rfl

end DeferredTx.Shell
