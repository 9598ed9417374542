import DeferredTx.Store.Value
import DeferredTx.Text.Ascii

/-!
# Tables

* `Table`: its columns, and its rows in ascending order of their numbers.
* `Catalog`: the tables of a database. Names of tables and columns are equal up to case.
-/

namespace DeferredTx.Store

/-- A column of a table. -/
structure Column where
  name : String
  /-- The words of its type as they are declared. -/
  type : Option String
  notNull : Bool := false
  /-- Whether the values differ from each other, nulls apart. -/
  unique : Bool := false
  deriving DecidableEq, Repr

/-- What becomes of values stored in the column. -/
def Column.affinity (c : Column) : Affinity :=
  .ofType c.type

/-- Whether the column holds the numbers of the rows. -/
def Column.isNumber (c : Column) : Bool :=
  c.unique && (c.type.map String.toLower) == some "integer"

/-- A row with its number. -/
structure Record where
  number : Int
  values : List Value
  deriving Repr

/-- A table. -/
structure Table where
  name : String
  columns : List Column
  records : List Record := []
  deriving Repr

namespace Table

/-- The place of a column. -/
def column? (t : Table) (name : String) : Option Nat :=
  t.columns.findIdx? fun c => Text.sameName c.name name

/-- The place of the column that holds the numbers of the rows. -/
def numberColumn? (t : Table) : Option Nat :=
  t.columns.findIdx? Column.isNumber

/-- The number of the next row. -/
def nextNumber (t : Table) : Int :=
  match t.records.getLast? with
  | some r => r.number + 1
  | none => 1

/-- Puts a record at its place by its number. -/
def place (r : Record) : List Record → List Record
  | [] => [r]
  | s :: rest => if r.number < s.number then r :: s :: rest else s :: place r rest

end Table

/-- The tables of a database. -/
structure Catalog where
  tables : List Table := []
  deriving Repr

namespace Catalog

/-- The table of a name. -/
def table? (c : Catalog) (name : String) : Option Table :=
  c.tables.find? fun t => Text.sameName t.name name

/-- Adds a table. -/
def add (c : Catalog) (t : Table) : Catalog :=
  ⟨c.tables ++ [t]⟩

/-- Removes the tables of a name. -/
def remove (c : Catalog) (name : String) : Catalog :=
  ⟨c.tables.filter fun t => !Text.sameName t.name name⟩

/-- Puts a table in the place of that of its name. -/
def replace (c : Catalog) (t : Table) : Catalog :=
  ⟨c.tables.map fun u => if Text.sameName u.name t.name then t else u⟩

end Catalog
end DeferredTx.Store
