import DeferredTx.Session.Column
import DeferredTx.Store.Selection

/-!
# Results as rows

The driver of the store knows the type of a column by the words that it is declared with, and does not
support all of them. A column without a type is shown by value.

* `typeName?`: the driver's names for the types of columns.
* `Value.driven`: values as the driver holds them.
* `Relation.isReadable`: whether all columns are supported.
* `Relation.toRows`: the rows of a result.
-/

namespace DeferredTx.Store

/-- The driver's name for the type that a column is declared with, if it supports the type. -/
def typeName? (type : Option String) : Option String :=
  match type.map String.toLower with
  | none => some "NULL"
  | some t =>
    if t = "int4" then some "INTEGER"
    else if ["boolean", "bool", "date", "time", "datetime", "timestamp"].contains t then none
    else
      match Affinity.ofType (some t) with
      | .integer => some "BIGINT"
      | .text => some "TEXT"
      | .real => some "DOUBLE"
      | .none => some "BLOB"
      | .numeric => some "NULL"

/-- A value as the driver holds it. -/
def Value.driven : Value → DriverValue
  | null => .null
  | integer n => .integer n
  | real x => .real x
  | text s => .text s
  | blob bytes => .blob bytes

namespace Relation

/-- Whether rows can be read at all; without rows the types do not matter. -/
def isReadable (r : Relation) : Bool :=
  r.rows.isEmpty || r.fields.all fun f => (typeName? f.type).isSome

/-- The columns of one of the rows, as the driver gives them. -/
def columns (r : Relation) (values : List Value) : List (ResultColumn DriverValue) :=
  (r.fields.zip values).map fun p => ⟨p.1.name, (typeName? p.1.type).getD "NULL", p.2.driven⟩

/-- The rows of a result. -/
def toRows (r : Relation) : Except StatementError (List Row) :=
  r.rows.mapM fun values => Row.read (r.columns values)

end Relation
end DeferredTx.Store
