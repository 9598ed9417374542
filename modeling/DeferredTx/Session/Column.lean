import DeferredTx.Error
import DeferredTx.Session.Row
import DeferredTx.Text.Base64

/-!
# Columns of results

A driver gives a row column by column. The name of a column's type decides what the driver is asked
for, and whether it can give it is up to the driver.

* `ColumnValue`: what a driver can be asked about a value.
* `DriverValue`: values as drivers commonly hold them.
* `ResultColumn`, `ResultColumn.cell`: a column, and its value as it is shown to callers.
* `Row.read`: the row of columns.
-/

namespace DeferredTx

/-- Values as a driver gives them, by what it answers when it is asked for one of them: the value,
nothing if it is null, or why it cannot be given. -/
class ColumnValue (ν : Type) where
  boolean (v : ν) : Except String (Option Bool)
  integer (v : ν) : Except String (Option Int)
  real (v : ν) : Except String (Option Float)
  text (v : ν) : Except String (Option String)
  blob (v : ν) : Except String (Option (List UInt8))
  /-- The driver does not look at the type of the column for this one and those below. -/
  uncheckedInteger (v : ν) : Except String (Option Int)
  uncheckedReal (v : ν) : Except String (Option Float)
  uncheckedText (v : ν) : Except String (Option String)

/-- Values as drivers commonly hold them. -/
inductive DriverValue where
  | null
  | boolean (b : Bool)
  | integer (n : Int)
  | real (x : Float)
  | text (s : String)
  | blob (bytes : List UInt8)

namespace DriverValue

/-- A value if it is one of those that are asked for. -/
def given {α : Type} (pick : DriverValue → Option α) (v : DriverValue) : Except String (Option α) :=
  match v, pick v with
  | null, _ => .ok none
  | _, some a => .ok (some a)
  | _, none => .error "mismatched types"

/-- A whole number. -/
def integer? : DriverValue → Option Int
  | integer n => some n
  | _ => none

/-- A fraction. -/
def real? : DriverValue → Option Float
  | real x => some x
  | _ => none

/-- A text. -/
def text? : DriverValue → Option String
  | text s => some s
  | _ => none

instance : ColumnValue DriverValue where
  boolean := given fun
    | boolean b => some b
    | _ => none
  integer := given integer?
  real := given real?
  text := given text?
  blob := given fun
    | blob bytes => some bytes
    | _ => none
  uncheckedInteger := given integer?
  uncheckedReal := given real?
  uncheckedText := given text?

end DriverValue

/-- A column of a row. -/
structure ResultColumn (ν : Type) where
  name : String
  /-- The driver's name for the type of the column. -/
  typeName : String
  value : ν

namespace ResultColumn

variable {ν α : Type}

/-- A value that has been asked for, as it is shown. -/
def shown (c : ResultColumn ν) (answer : Except String (Option α)) (cell : α → Cell) :
    Except StatementError Cell :=
  match answer with
  | .ok found => .ok (found.elim .null cell)
  | .error reason => .error (.badColumn c.name c.typeName reason)

variable [ColumnValue ν]

/-- A value of a type that is not known, as it is shown: the first of these that the driver can give.
Bytes are not shown. -/
def untyped (v : ν) : Cell :=
  match ColumnValue.uncheckedInteger v, ColumnValue.uncheckedReal v, ColumnValue.uncheckedText v with
  | .ok (some n), _, _ => .integer n
  | _, .ok (some x), _ => .real x
  | _, _, .ok (some s) => .text s
  | _, _, _ => .null

/-- The value of a column as it is shown. Bytes are shown in base 64. -/
def cell (c : ResultColumn ν) : Except StatementError Cell :=
  match c.typeName with
  | "BOOLEAN" => c.shown (ColumnValue.boolean c.value) .boolean
  | "SMALLINT" | "INTEGER" | "BIGINT" => c.shown (ColumnValue.integer c.value) .integer
  | "REAL" | "DOUBLE" => c.shown (ColumnValue.real c.value) .real
  | "TEXT" => c.shown (ColumnValue.text c.value) .text
  | "BLOB" =>
    c.shown (ColumnValue.blob c.value) fun bytes => .text (String.ofList (Text.Base64.encode bytes))
  | _ => .ok (untyped c.value)

/-- The name of a column, and its value as it is shown. -/
def entry (c : ResultColumn ν) : Except StatementError (String × Cell) := do
  return (c.name, ← c.cell)

end ResultColumn

/-- The row of columns. The first one that cannot be shown fails it. -/
def Row.read {ν : Type} [ColumnValue ν] (columns : List (ResultColumn ν)) :
    Except StatementError Row := do
  return Row.ofColumns (← columns.mapM ResultColumn.entry)

end DeferredTx
