import DeferredTx.Sql.Statement.Basic
import DeferredTx.Store.Selection

/-!
# Changes of tables

* `Fault`: why a statement is not carried out.
* `Table.put`: stores one row under the rules of its columns.
* `Catalog.insert`, `Catalog.update`, `Catalog.delete`: change rows, and tell how many.
* `Catalog.createTable`, `Catalog.dropTable`: change the tables.
-/

namespace DeferredTx.Store

open Sql (Expr Name ColumnDef)

/-- Why a statement is not carried out. -/
inductive Fault where
  /-- It cannot be read, or something that it names does not fit the tables. -/
  | refused
  /-- A row that it would store violates a rule. -/
  | violated
  deriving DecidableEq, Repr

/-- The value, or a refusal. -/
def orRefuse {α : Type} : Option α → Except Fault α
  | some a => .ok a
  | none => .error .refused

namespace Table

/-- Whether a record stands in the way of another one: they have one number, or equal values in a
column of different values. -/
def conflicts (t : Table) (new old : Record) : Bool :=
  new.number == old.number
    || (t.columns.zip (new.values.zip old.values)).any fun p =>
      p.1.unique && !p.1.isNumber && p.2.1.order .null != .eq && p.2.1.order p.2.2 == .eq

/-- The number of a row: that in the column for it, or `otherwise` if the value there is null or there
is no such column. -/
def recordNumber (t : Table) (values : List Value) (otherwise : Int) : Except Fault Int :=
  match t.numberColumn?.bind (values[·]?) with
  | none | some .null => .ok otherwise
  | some (.integer n) => .ok n
  | some _ => .error .violated

/-- Stores a row. Its values are converted; records in its way are removed if it replaces them. -/
def put (t : Table) (replacing : Bool) (otherwise : Int) (values : List Value) :
    Except Fault Table := do
  let converted := (t.columns.zip values).map fun p => p.1.affinity.apply p.2
  let number ← t.recordNumber converted otherwise
  let numbered := match t.numberColumn? with
    | none => converted
    | some place => converted.set place (.integer number)
  let record : Record := ⟨number, numbered⟩
  if (t.columns.zip numbered).any fun p => p.1.notNull && p.2.order .null == .eq then
    throw .violated
  if !replacing && t.records.any (t.conflicts record) then throw .violated
  let kept := t.records.filter fun old => !t.conflicts record old
  return { t with records := place record kept }

/-- The scope of expressions on the rows of a table. -/
def scope (t : Table) : Scope :=
  { fields := (Relation.ofTable t).fields }

/-- The test that a condition makes on records; without one all pass. -/
def test (t : Table) (condition : Option Expr) : Except Fault (Record → Bool) := do
  match condition with
  | none => return fun _ => true
  | some e =>
    let term ← orRefuse (Term.resolve? t.scope e)
    return fun r => (term.value ⟨r.values, 0⟩).truth == some true

end Table

namespace Catalog

/-- The table of a name, or a refusal. -/
def find (c : Catalog) (name : Name) : Except Fault Table :=
  orRefuse (c.table? name.text)

/-- Inserts rows. Columns that are not named are null. -/
def insert (c : Catalog) (replacing : Bool) (table : Name) (columns : List Name)
    (rows : List (List Expr)) : Except Fault (Catalog × Nat) := do
  let t ← c.find table
  let places ←
    if columns.isEmpty then pure (List.range t.columns.length)
    else orRefuse (columns.mapM fun n => t.column? n.text)
  let terms ← orRefuse (rows.mapM fun row => row.mapM (Term.resolve? {}))
  if terms.any fun row => row.length != places.length then throw .refused
  let full ← terms.foldlM (fun (t : Table) row =>
    let given := row.map (Term.value ⟨[], 0⟩)
    let values := (List.range t.columns.length).map fun i =>
      ((places.idxOf? i).bind (given[·]?)).getD .null
    t.put replacing t.nextNumber values) t
  return (c.replace full, rows.length)

/-- Updates the rows that satisfy a condition, one after another. -/
def update (c : Catalog) (table : Name) (changes : List (Name × Expr)) (condition : Option Expr) :
    Except Fault (Catalog × Nat) := do
  let t ← c.find table
  let changed ← orRefuse <| changes.mapM fun p => do
    return (← t.column? p.1.text, ← Term.resolve? t.scope p.2)
  let passes ← t.test condition
  let chosen := t.records.filter passes
  let full ← chosen.foldlM (fun (u : Table) r => do
    let values := changed.foldl (fun vs p => vs.set p.1 (p.2.value ⟨r.values, 0⟩)) r.values
    if (t.numberColumn?.bind (values[·]?)).any fun v => v.order .null == .eq then
      throw .violated
    let others := { u with records := u.records.filter fun s => s.number != r.number }
    others.put false r.number values) t
  return (c.replace full, chosen.length)

/-- Deletes the rows that satisfy a condition. -/
def delete (c : Catalog) (table : Name) (condition : Option Expr) :
    Except Fault (Catalog × Nat) := do
  let t ← c.find table
  let passes ← t.test condition
  let kept := t.records.filter fun r => !passes r
  return (c.replace { t with records := kept }, t.records.length - kept.length)

/-- A column as it is declared. -/
def column (d : ColumnDef) : Column where
  name := d.name.text
  type := d.type.map fun t =>
    String.intercalate " " t.words
      ++ if t.sizes.isEmpty then "" else "(" ++ String.intercalate "," t.sizes ++ ")"
  notNull := d.rules.contains .notNull
  unique := d.rules.contains .primaryKey

/-- The beginning of the names of tables that nobody may create. -/
def internalStart : String := "sqlite_"

/-- Creates a table, unless it exists and that is allowed for. -/
def createTable (c : Catalog) (unlessExists : Bool) (table : Name) (columns : List ColumnDef) :
    Except Fault Catalog := do
  if Text.startsWithFold internalStart.toList table.text.toList then throw .refused
  if (c.table? table.text).isSome then
    if unlessExists then return c else throw .refused
  let names := columns.map fun d => Text.fold d.name.text.toList
  let keys := (columns.flatMap (·.rules)).filter (· == .primaryKey)
  if names.eraseDups.length < names.length || 1 < keys.length then throw .refused
  return c.add ⟨table.text, columns.map column, []⟩

/-- Drops a table; a missing one is refused unless that is allowed for. -/
def dropTable (c : Catalog) (ifExists : Bool) (table : Name) : Except Fault Catalog :=
  if (c.table? table.text).isSome then .ok (c.remove table.text)
  else if ifExists then .ok c
  else .error .refused

end Catalog
end DeferredTx.Store
