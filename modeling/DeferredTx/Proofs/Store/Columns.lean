import Mathlib.Data.List.Forall2
import Mathlib.Data.List.Induction
import Mathlib.Data.List.Perm.Subperm
import Mathlib.Data.String.Basic
import DeferredTx.Store.Database

/-!
# The columns of a row

A row has one value for every name. A result may well have several columns of one name, since a query
names its columns as it likes.

* `Row.Ascending`, `Row.ascending_ofColumns`: the names of a row are in ascending order, each once.
* `Row.mem_names_ofColumns`, `Row.get?_ofColumns_last`: which names a row has, and what stands under
  them.
* `Row.length_ofColumns_iff`: a row has as many values as there are columns if their names differ.
* `ResultColumn.Converts`, `ResultColumn.cell_eq_ok_iff`: what the value of a column is shown as.
* `Row.read_eq_ok_iff`: the rows that can be read.
* `Row.read_keeps_last`: **of the columns with one name the last one is kept**, and nothing is lost if
  all names differ.
-/

namespace DeferredTx

namespace Row

variable {cells front back : List (String × Cell)} {name other : String} {cell : Cell} {r : Row}

/-- The names of the columns. -/
def names (r : Row) : List String :=
  r.cells.map (·.1)

/-- Each name is less than those behind it. -/
def Ascending (r : Row) : Prop :=
  r.cells.Pairwise fun p q => p.1 < q.1

theorem Ascending.nodup (h : r.Ascending) : r.names.Nodup :=
  List.pairwise_map.2 (h.imp ne_of_lt)

theorem eq_or_mem_of_mem_place {p : String × Cell} (h : p ∈ place name cell cells) :
    p = (name, cell) ∨ p ∈ cells := by
  induction cells with
  | nil => exact Or.inl (List.mem_singleton.1 h)
  | cons first rest ih =>
    obtain ⟨other, c⟩ := first
    unfold place at h
    split_ifs at h
    · exact (List.mem_cons.1 h).imp_right (List.mem_cons_of_mem _)
    · exact List.mem_cons.1 h
    · rcases List.mem_cons.1 h with rfl | hrest
      · exact Or.inr List.mem_cons_self
      · exact (ih hrest).imp_right (List.mem_cons_of_mem _)

/-- Behind an insertion there is one name more, or as many as before. -/
theorem mem_names_insert : other ∈ (r.insert name cell).names ↔ other = name ∨ other ∈ r.names := by
  obtain ⟨cells⟩ := r
  unfold names insert
  induction cells with
  | nil => simp [place]
  | cons first rest ih =>
    obtain ⟨old, c⟩ := first
    unfold place
    split_ifs with heq hlt
    · subst heq
      simp
    · simp
    · simp only [List.map_cons, List.mem_cons, ih]
      tauto

theorem ascending_insert (h : r.Ascending) : (r.insert name cell).Ascending := by
  obtain ⟨cells⟩ := r
  unfold Ascending insert at *
  induction cells with
  | nil => exact List.pairwise_singleton _ _
  | cons first rest ih =>
    obtain ⟨old, c⟩ := first
    obtain ⟨hfirst, hrest⟩ := List.pairwise_cons.1 h
    unfold place
    split_ifs with heq hlt
    · subst heq
      exact List.pairwise_cons.2 ⟨hfirst, hrest⟩
    · refine List.pairwise_cons.2 ⟨?_, h⟩
      intro p hp
      rcases List.mem_cons.1 hp with rfl | hp
      · exact hlt
      · exact hlt.trans (hfirst p hp)
    · refine List.pairwise_cons.2 ⟨?_, ih hrest⟩
      intro p hp
      rcases eq_or_mem_of_mem_place hp with rfl | hp
      · exact lt_of_le_of_ne (not_lt.1 hlt) (Ne.symm heq)
      · exact hfirst p hp

theorem ofColumns_snoc (columns : List (String × Cell)) (name : String) (cell : Cell) :
    ofColumns (columns ++ [(name, cell)]) = (ofColumns columns).insert name cell := by
  unfold ofColumns
  rw [List.foldl_append]
  rfl

/-- **Rows are in order**: the names ascend, so that each is there once. -/
theorem ascending_ofColumns (columns : List (String × Cell)) : (ofColumns columns).Ascending := by
  induction columns using List.reverseRecOn with
  | nil => exact List.Pairwise.nil
  | append_singleton columns c ih =>
    rw [ofColumns_snoc]
    exact ascending_insert ih

/-- The names of a row are those of its columns. -/
theorem mem_names_ofColumns (columns : List (String × Cell)) (name : String) :
    name ∈ (ofColumns columns).names ↔ name ∈ columns.map (·.1) := by
  induction columns using List.reverseRecOn with
  | nil => exact Iff.rfl
  | append_singleton columns c ih =>
    rw [ofColumns_snoc, mem_names_insert, ih, List.map_append, List.mem_append, List.map_singleton,
      List.mem_singleton, or_comm]

/-- **The last column of a name decides** what stands under it. -/
theorem get?_ofColumns_last (h : name ∉ back.map (·.1)) :
    (ofColumns (front ++ (name, cell) :: back)).get? name = some cell := by
  induction back using List.reverseRecOn with
  | nil => rw [ofColumns_snoc, get?_insert, if_pos rfl]
  | append_singleton back c ih =>
    rw [List.map_append, List.mem_append, not_or] at h
    have hne : c.1 ≠ name := fun heq => h.2 (List.mem_singleton.2 heq.symm)
    rw [← List.cons_append, ← List.append_assoc, ofColumns_snoc, get?_insert, if_neg hne]
    exact ih h.1

/-- A row has a value for each column exactly if no two of them have one name. -/
theorem length_ofColumns_iff (columns : List (String × Cell)) :
    (ofColumns columns).cells.length = columns.length ↔ (columns.map (·.1)).Nodup := by
  have hnodup : (ofColumns columns).names.Nodup := (ascending_ofColumns columns).nodup
  have hmem := mem_names_ofColumns columns
  have hcells : (ofColumns columns).names.length = (ofColumns columns).cells.length :=
    List.length_map _
  have hgiven : (columns.map (·.1)).length = columns.length := List.length_map _
  rw [← hcells, ← hgiven]
  constructor
  · intro hlength
    have hsub : (ofColumns columns).names.Subperm (columns.map (·.1)) :=
      List.subperm_of_subset hnodup fun name hname => (hmem name).1 hname
    exact (hsub.perm_of_length_le hlength.ge).nodup_iff.1 hnodup
  · intro hnames
    exact ((List.perm_ext_iff_of_nodup hnodup hnames).2 hmem).length_eq

end Row

namespace ResultColumn

variable {ν : Type} [ColumnValue ν] {c : ResultColumn ν} {out : Cell}

/-- The names of the types that are known. -/
def knownTypes : List String :=
  ["BOOLEAN", "SMALLINT", "INTEGER", "BIGINT", "REAL", "DOUBLE", "TEXT", "BLOB"]

/-- What the value of a column is shown as. It is what the driver gives for a known type, and null for a
null. For any other type it is what the driver can give first: a whole number, a fraction or a text. -/
inductive Converts (c : ResultColumn ν) : Cell → Prop where
  | boolean {b : Option Bool} : c.typeName = "BOOLEAN" → ColumnValue.boolean c.value = .ok b →
    Converts c (b.elim .null .boolean)
  | integer {n : Option Int} : c.typeName ∈ ["SMALLINT", "INTEGER", "BIGINT"] →
    ColumnValue.integer c.value = .ok n → Converts c (n.elim .null .integer)
  | real {x : Option Float} : c.typeName ∈ ["REAL", "DOUBLE"] → ColumnValue.real c.value = .ok x →
    Converts c (x.elim .null .real)
  | text {s : Option String} : c.typeName = "TEXT" → ColumnValue.text c.value = .ok s →
    Converts c (s.elim .null .text)
  | blob {bytes : Option (List UInt8)} : c.typeName = "BLOB" → ColumnValue.blob c.value = .ok bytes →
    Converts c (bytes.elim .null fun bytes => .text (String.ofList (Text.Base64.encode bytes)))
  | untypedInteger {n : Int} : c.typeName ∉ knownTypes →
    ColumnValue.uncheckedInteger c.value = .ok (some n) → Converts c (.integer n)
  | untypedReal {x : Float} : c.typeName ∉ knownTypes →
    (∀ n, ColumnValue.uncheckedInteger c.value ≠ .ok (some n)) →
    ColumnValue.uncheckedReal c.value = .ok (some x) → Converts c (.real x)
  | untypedText {s : String} : c.typeName ∉ knownTypes →
    (∀ n, ColumnValue.uncheckedInteger c.value ≠ .ok (some n)) →
    (∀ x, ColumnValue.uncheckedReal c.value ≠ .ok (some x)) →
    ColumnValue.uncheckedText c.value = .ok (some s) → Converts c (.text s)
  | untypedNull : c.typeName ∉ knownTypes →
    (∀ n, ColumnValue.uncheckedInteger c.value ≠ .ok (some n)) →
    (∀ x, ColumnValue.uncheckedReal c.value ≠ .ok (some x)) →
    (∀ s, ColumnValue.uncheckedText c.value ≠ .ok (some s)) → Converts c .null

omit [ColumnValue ν] in
theorem shown_ok {α : Type} (found : Option α) (f : α → Cell) :
    c.shown (.ok found) f = .ok (found.elim .null f) := rfl

omit [ColumnValue ν] in
theorem shown_eq_ok_iff {α : Type} {answer : Except String (Option α)} {f : α → Cell} :
    c.shown answer f = .ok out ↔ ∃ found, answer = .ok found ∧ found.elim .null f = out := by
  unfold shown
  cases answer <;> simp

theorem cell_of_boolean (h : c.typeName = "BOOLEAN") :
    c.cell = c.shown (ColumnValue.boolean c.value) .boolean := by
  unfold cell
  rw [h]
  rfl

theorem cell_of_integer (h : c.typeName ∈ ["SMALLINT", "INTEGER", "BIGINT"]) :
    c.cell = c.shown (ColumnValue.integer c.value) .integer := by
  unfold cell
  simp only [List.mem_cons, List.not_mem_nil, or_false] at h
  rcases h with h | h | h <;> rw [h] <;> rfl

theorem cell_of_real (h : c.typeName ∈ ["REAL", "DOUBLE"]) :
    c.cell = c.shown (ColumnValue.real c.value) .real := by
  unfold cell
  simp only [List.mem_cons, List.not_mem_nil, or_false] at h
  rcases h with h | h <;> rw [h] <;> rfl

theorem cell_of_text (h : c.typeName = "TEXT") :
    c.cell = c.shown (ColumnValue.text c.value) .text := by
  unfold cell
  rw [h]
  rfl

theorem cell_of_blob (h : c.typeName = "BLOB") : c.cell = c.shown (ColumnValue.blob c.value)
    fun bytes => .text (String.ofList (Text.Base64.encode bytes)) := by
  unfold cell
  rw [h]
  rfl

theorem cell_of_unknown (h : c.typeName ∉ knownTypes) : c.cell = .ok (untyped c.value) := by
  unfold cell
  split
  case h_9 => rfl
  all_goals
    rename_i htype
    rw [htype] at h
    exact absurd (by decide) h

omit [ColumnValue ν] in
/-- Each known type is one of these. -/
theorem typeName_cases (c : ResultColumn ν) : c.typeName = "BOOLEAN" ∨
    c.typeName ∈ ["SMALLINT", "INTEGER", "BIGINT"] ∨ c.typeName ∈ ["REAL", "DOUBLE"] ∨
      c.typeName = "TEXT" ∨ c.typeName = "BLOB" ∨ c.typeName ∉ knownTypes := by
  simp only [knownTypes, List.mem_cons, List.not_mem_nil, or_false]
  tauto

/-- A value of a type that is not known is shown in one way. -/
theorem converts_untyped (h : c.typeName ∉ knownTypes) : Converts c (untyped c.value) := by
  unfold untyped
  split
  case h_1 hinteger => exact .untypedInteger h hinteger
  case h_2 hreal hnot => exact .untypedReal h hnot hreal
  case h_3 htext hnot hnot' => exact .untypedText h hnot hnot' htext
  case h_4 hnot hnot' hnot'' => exact .untypedNull h hnot hnot' hnot''

/-- **The value of a column is shown as its type says**, or it is not shown. -/
theorem cell_eq_ok_iff : c.cell = .ok out ↔ Converts c out := by
  constructor
  · intro h
    rcases c.typeName_cases with htype | htype | htype | htype | htype | htype
    · rw [cell_of_boolean htype] at h
      obtain ⟨found, hfound, rfl⟩ := shown_eq_ok_iff.1 h
      exact .boolean htype hfound
    · rw [cell_of_integer htype] at h
      obtain ⟨found, hfound, rfl⟩ := shown_eq_ok_iff.1 h
      exact .integer htype hfound
    · rw [cell_of_real htype] at h
      obtain ⟨found, hfound, rfl⟩ := shown_eq_ok_iff.1 h
      exact .real htype hfound
    · rw [cell_of_text htype] at h
      obtain ⟨found, hfound, rfl⟩ := shown_eq_ok_iff.1 h
      exact .text htype hfound
    · rw [cell_of_blob htype] at h
      obtain ⟨found, hfound, rfl⟩ := shown_eq_ok_iff.1 h
      exact .blob htype hfound
    · rw [cell_of_unknown htype] at h
      obtain rfl := Except.ok.inj h
      exact converts_untyped htype
  · intro h
    cases h with
    | boolean htype hfound => rw [cell_of_boolean htype, hfound, shown_ok]
    | integer htype hfound => rw [cell_of_integer htype, hfound, shown_ok]
    | real htype hfound => rw [cell_of_real htype, hfound, shown_ok]
    | text htype hfound => rw [cell_of_text htype, hfound, shown_ok]
    | blob htype hfound => rw [cell_of_blob htype, hfound, shown_ok]
    | untypedInteger hnot hn =>
      rw [cell_of_unknown hnot, untyped, hn]
    | untypedReal hnot hn hx =>
      rw [cell_of_unknown hnot, untyped, hx]
      grind
    | untypedText hnot hn hx hs =>
      rw [cell_of_unknown hnot, untyped, hs]
      grind
    | untypedNull hnot hn hx hs =>
      rw [cell_of_unknown hnot, untyped]
      grind

end ResultColumn

namespace Row

open ResultColumn (Converts cell_eq_ok_iff)

/-- Each step of a traversal that succeeds has succeeded. -/
theorem mapM_eq_ok_iff {ε α β : Type} {f : α → Except ε β} {as : List α} {bs : List β} :
    as.mapM f = .ok bs ↔ List.Forall₂ (fun a b => f a = .ok b) as bs := by
  induction as generalizing bs with
  | nil =>
    rw [List.mapM_nil, List.forall₂_nil_left_iff]
    exact ⟨fun h => (Except.ok.inj h).symm, fun h => congrArg Except.ok h.symm⟩
  | cons a as ih =>
    rw [List.mapM_cons, List.forall₂_cons_left_iff]
    cases ha : f a with
    | error e =>
      refine iff_of_false nofun ?_
      rintro ⟨b, rest, hb, -⟩
      cases hb
    | ok b =>
      constructor
      · intro h
        cases hrest : as.mapM f with
        | error e =>
          rw [hrest] at h
          cases h
        | ok rest =>
          rw [hrest] at h
          exact ⟨b, rest, rfl, ih.1 hrest, (Except.ok.inj h).symm⟩
      · rintro ⟨_, rest, ⟨⟩, hrest, rfl⟩
        rw [ih.2 hrest]
        rfl

variable {ν : Type} [ColumnValue ν]

/-- The column `c` is shown as the name and the value `p`. -/
def ShownAs (c : ResultColumn ν) (p : String × Cell) : Prop :=
  p.1 = c.name ∧ Converts c p.2

/-- The row holds the value of the column `c`, as it is shown, under its name. -/
def Holds (row : Row) (c : ResultColumn ν) : Prop :=
  ∃ cell, Converts c cell ∧ row.get? c.name = some cell

variable {columns front back : List (ResultColumn ν)} {c : ResultColumn ν} {row : Row}

theorem entry_eq_ok_iff {p : String × Cell} : c.entry = .ok p ↔ ShownAs c p := by
  obtain ⟨name, cell⟩ := p
  have hcell : c.cell = .ok cell ↔ Converts c cell := cell_eq_ok_iff
  rw [ShownAs, ← hcell]
  unfold ResultColumn.entry
  cases c.cell <;> simp [bind, Except.bind, pure, Except.pure, eq_comm]

/-- The columns of a row are shown one by one; a row is read if each of them can be. -/
theorem read_eq_ok_iff : read columns = .ok row ↔
    ∃ cells, List.Forall₂ ShownAs columns cells ∧ row = .ofColumns cells := by
  have hread : ∀ cells, columns.mapM ResultColumn.entry = .ok cells ↔
      List.Forall₂ ShownAs columns cells := by
    intro cells
    simp only [mapM_eq_ok_iff, entry_eq_ok_iff]
  unfold read
  constructor
  · intro h
    cases hcells : columns.mapM ResultColumn.entry with
    | error e =>
      rw [hcells] at h
      cases h
    | ok cells =>
      rw [hcells] at h
      exact ⟨cells, (hread cells).1 hcells, (Except.ok.inj h).symm⟩
  · rintro ⟨cells, hcells, rfl⟩
    rw [(hread cells).2 hcells]
    rfl

theorem names_of_shown {cells : List (String × Cell)} (h : List.Forall₂ ShownAs columns cells) :
    cells.map (·.1) = columns.map ResultColumn.name := by
  induction h with
  | nil => rfl
  | cons hfirst _ ih => rw [List.map_cons, List.map_cons, hfirst.1, ih]

/-- A column is there if no other one of its name stands behind it. -/
theorem holds_of_last {cells : List (String × Cell)}
    (h : List.Forall₂ ShownAs (front ++ c :: back) cells)
    (hlast : c.name ∉ back.map ResultColumn.name) : Holds (.ofColumns cells) c := by
  -- the columns in front are shown in front
  have hdrop := List.forall₂_drop_append cells front (c :: back) h.flip
  obtain ⟨p, ps, hc, hback, hcells⟩ := List.forall₂_cons_right_iff.1 hdrop
  obtain ⟨name, cell⟩ := p
  obtain ⟨rfl, hcell⟩ : ShownAs c (name, cell) := hc
  refine ⟨cell, hcell, ?_⟩
  rw [← List.take_append_drop front.length cells, hcells]
  refine get?_ofColumns_last ?_
  rw [names_of_shown hback.flip]
  exact hlast

/-- **Of the columns with one name the last one is kept**, whatever a driver gives. A row that has been
read has every name of its columns once, in ascending order, and no other name. Under it stands the
value of the last column of that name, as it is shown. So the row has as many values as there are
columns if and only if all names differ, and then it holds the value of each column under its name. -/
theorem read_keeps_last (h : read columns = .ok row) :
    row.Ascending ∧ (∀ name, name ∈ row.names ↔ name ∈ columns.map ResultColumn.name) ∧
      (∀ front c back, columns = front ++ c :: back → c.name ∉ back.map ResultColumn.name →
        Holds row c) ∧
      (row.cells.length = columns.length ↔ (columns.map ResultColumn.name).Nodup) ∧
      ((columns.map ResultColumn.name).Nodup → ∀ c ∈ columns, Holds row c) := by
  obtain ⟨cells, hcells, rfl⟩ := read_eq_ok_iff.1 h
  have hnames := names_of_shown hcells
  have hlast : ∀ front c back, columns = front ++ c :: back → c.name ∉ back.map ResultColumn.name →
      Holds (.ofColumns cells) c := by
    rintro front c back rfl hnot
    exact holds_of_last hcells hnot
  refine ⟨ascending_ofColumns cells, fun name => ?_, hlast, ?_, fun hnodup c hc => ?_⟩
  · rw [mem_names_ofColumns, hnames]
  · rw [hcells.length_eq, ← hnames]
    exact length_ofColumns_iff cells
  · obtain ⟨front, back, hsplit⟩ := List.append_of_mem hc
    refine hlast front c back hsplit ?_
    rw [hsplit, List.map_append, List.map_cons] at hnodup
    exact (List.nodup_cons.1 (List.nodup_append.1 hnodup).2.1).1

/-- Columns of different types whose names differ, one of them without a value. -/
theorem columns_with_names_kept :
    let columns : List (ResultColumn DriverValue) := [⟨"b", "TEXT", .text "x"⟩,
      ⟨"a", "SMALLINT", .integer 7⟩, ⟨"d", "BOOLEAN", .boolean true⟩, ⟨"c", "REAL", .null⟩,
      ⟨"count(*)", "NULL", .integer 2⟩]
    let row : Row := ⟨[("a", .integer 7), ("b", .text "x"), ("c", .null), ("count(*)", .integer 2),
      ("d", .boolean true)]⟩
    read columns = .ok row ∧ (columns.map ResultColumn.name).Nodup ∧
      row.cells.length = columns.length ∧ ∀ c ∈ columns, Holds row c := by
  intro columns row
  have hrow : read columns = .ok row := by rfl
  have hnodup : (columns.map ResultColumn.name).Nodup := by decide
  obtain ⟨-, -, -, hlength, hholds⟩ := read_keeps_last hrow
  exact ⟨hrow, hnodup, hlength.2 hnodup, hholds hnodup⟩

/-- **Equal names collapse.** Of two columns with one name the row has only the second, and so has the
row that a query gives. -/
theorem equal_names_collapse :
    let columns : List (ResultColumn DriverValue) := [⟨"a", "NULL", .integer 1⟩,
      ⟨"a", "NULL", .integer 2⟩]
    (∃ row, read columns = .ok row ∧ row.cells.length ≠ columns.length ∧
      ¬Holds row (⟨"a", "NULL", .integer 1⟩ : ResultColumn DriverValue)) ∧
    (match Store.query "SELECT 1 AS a, 2 AS a" {} with
      | .ok rows _ => rows.map names
      | .error .. => []) = [["a"]] := by
  intro columns
  have hrow : read columns = .ok ⟨[("a", .integer 2)]⟩ := by rfl
  refine ⟨⟨_, hrow, by decide, ?_⟩, by decide +kernel⟩
  rintro ⟨cell, hcell, hget⟩
  have hshown := cell_eq_ok_iff.2 hcell
  cases hshown
  cases hget

end Row
end DeferredTx
