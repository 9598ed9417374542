import DeferredTx.Text.Quoted
import DeferredTx.Decimal.Shortest

/-!
# Result rows

A row of a result maps column names to values. Its columns are kept in ascending order of their
names, and of two columns with equal names the later one stands.

* `Cell`: a value as it is shown to callers.
* `Row.insert`: sets the value of a column.
* `Row.render`: the row as a compact JSON object.
-/

namespace DeferredTx

/-- A value of a result. -/
inductive Cell where
  | null
  | boolean (b : Bool)
  | integer (n : Int)
  | real (x : Float)
  | text (s : String)

/-- The value in JSON; a number that is not finite is written as null. -/
def Cell.render : Cell → String
  | .null => "null"
  | .boolean b => toString b
  | .integer n => toString n
  | .real x => (Decimal.jsonNumber? x).getD "null"
  | .text s => Text.Quoted.json s

/-- A row of a result, with its columns in ascending order of their names. -/
structure Row where
  cells : List (String × Cell) := []

namespace Row

/-- Puts a column at its place among `cells`; an equal name is replaced. -/
def place (name : String) (cell : Cell) : List (String × Cell) → List (String × Cell)
  | [] => [(name, cell)]
  | (other, c) :: rest =>
    if name = other then (name, cell) :: rest
    else if name < other then (name, cell) :: (other, c) :: rest
    else (other, c) :: place name cell rest

/-- Sets the value of a column. -/
def insert (r : Row) (name : String) (cell : Cell) : Row :=
  ⟨place name cell r.cells⟩

/-- The value of a column. -/
def get? (r : Row) (name : String) : Option Cell :=
  (r.cells.find? fun p => p.1 == name).map (·.2)

theorem get?_insert (r : Row) (name other : String) (cell : Cell) :
    (r.insert name cell).get? other = if name = other then some cell else r.get? other := by
  obtain ⟨cells⟩ := r
  induction cells with
  | nil => simp [insert, get?, place, apply_ite]
  | cons first rest ih => grind [insert, get?, place]

/-- The row with these columns, inserted in order. -/
def ofColumns (columns : List (String × Cell)) : Row :=
  columns.foldl (fun r p => r.insert p.1 p.2) {}

/-- The row as a JSON object without blanks. -/
def render (r : Row) : String :=
  "\x7b" ++ String.intercalate "," (r.cells.map fun p => Text.Quoted.json p.1 ++ ":" ++ p.2.render)
    ++ "\x7d"

end Row
end DeferredTx
