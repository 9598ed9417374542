import DeferredTx.Sql.Statement.Basic

/-!
# Reading statements

* `Statement.read`: the statement at the front of a list of tokens. Its first word decides how it is
  read on.
* `chunks`: the tokens of a text up to each semicolon and to its end, where there are any.
-/

namespace DeferredTx.Sql

open Reader

/-- Takes the sizes behind a type. -/
def ColumnType.readSizes : Reader (List String) := do
  let size : Reader String := token fun t =>
    match t.lexeme with
    | .number text => some text
    | _ => none
  return (← optional (parenthesized (commaSeparated size))).getD []

/-- Takes one word of a type; words that begin a rule are none. -/
def ColumnType.readWord : Reader String :=
  token fun t =>
    match t.lexeme with
    | .word text => if isOneOf text ["NOT", "PRIMARY"] then none else some text
    | _ => none

/-- Takes words of a type as long as there are any. -/
def ColumnType.readWords : List Token → List String × List Token
  | [] => ([], [])
  | t :: ts =>
    match readWord [t] with
    | some (word, _) => let (words, rest) := readWords ts; (word :: words, rest)
    | none => ([], t :: ts)

/-- Takes the type of a column. -/
def ColumnType.read (d : Dialect) : Reader ColumnType := do
  let first ← readWord
  if d.longTypes then
    let more ← fun ts => some (readWords ts)
    return ⟨first :: more, ← readSizes⟩
  else if Text.sameName first "DOUBLE" then
    let more ← optional (oneOf ["PRECISION"])
    return ⟨first :: more.toList, ← readSizes⟩
  else
    return ⟨[first], ← readSizes⟩

/-- Takes rules for a column as long as there are any. -/
def ColumnRule.readAll : List Token → List ColumnRule × List Token
  | t :: u :: ts =>
    if t.isKeyword "NOT" && u.isKeyword "NULL" then
      let (rules, rest) := readAll ts; (.notNull :: rules, rest)
    else if t.isKeyword "PRIMARY" && u.isKeyword "KEY" then
      let (rules, rest) := readAll ts; (.primaryKey :: rules, rest)
    else ([], t :: u :: ts)
  | ts => ([], ts)

/-- Takes a column of a new table. -/
def ColumnDef.read (d : Dialect) : Reader ColumnDef := do
  let name ← Reader.name d
  let type ←
    if d.untypedColumns then optional (ColumnType.read d) else some <$> ColumnType.read d
  let rules ← fun ts => some (ColumnRule.readAll ts)
  return ⟨name, type, rules⟩

namespace Statement

/-- Takes what follows `INSERT` or `REPLACE`. -/
def readInsert (d : Dialect) (replacing : Bool) : Reader Statement := do
  keyword "INTO"
  let table ← name d
  let columns ← optional (parenthesized (commaSeparated (name d)))
  keyword "VALUES"
  let rows ← commaSeparated (parenthesized (commaSeparated (Expr.read d.inner)))
  return .insert replacing table (columns.getD []) rows

/-- Takes what follows `UPDATE`. -/
def readUpdate (d : Dialect) : Reader Statement := do
  let table ← name d
  keyword "SET"
  let changes ← commaSeparated do
    let column ← name d
    symbol "="
    return (column, ← Expr.read d)
  return .update table changes (← clause ["WHERE"] (Expr.read d))

/-- Takes what follows `DELETE`. -/
def readDelete (d : Dialect) : Reader Statement := do
  keyword "FROM"
  let table ← name d
  return .delete table (← clause ["WHERE"] (Expr.read d))

/-- Takes what follows `CREATE`. -/
def readCreate (d : Dialect) : Reader Statement := do
  keyword "TABLE"
  let unlessExists ← present (keywords ["IF", "NOT", "EXISTS"])
  let table ← name d
  if d.emptyTables then
    let columns ← optional (parenthesized (optional (commaSeparated (ColumnDef.read d))))
    return .createTable unlessExists table (columns.join.getD [])
  return .createTable unlessExists table (← parenthesized (commaSeparated (ColumnDef.read d)))

/-- Takes what follows `DROP`. -/
def readDrop (d : Dialect) : Reader Statement := do
  keyword "TABLE"
  let ifExists ← present (keywords ["IF", "EXISTS"])
  return .dropTable ifExists (← name d)

/-- Takes what follows `BEGIN`. -/
def readBegin (d : Dialect) : Reader Statement := do
  let mode ← optional (oneOf d.beginModes)
  let noun ← optional (oneOf d.transactionWords)
  return .begin (mode.toList ++ noun.toList)

/-- Takes what follows `ROLLBACK`. -/
def readRollback (d : Dialect) : Reader Statement := do
  discard <| optional (oneOf d.transactionWords)
  if ← present (keyword "TO") then
    discard <| present (keyword "SAVEPOINT")
    return .rollbackTo (← name d)
  return .rollback

/-- Takes a statement, which is the outermost level. -/
def read (outer : Dialect) : Reader Statement := do
  let d := outer.inner
  let opening ← oneOf
    (["INSERT", "UPDATE", "DELETE", "CREATE", "DROP", "BEGIN", "COMMIT", "ROLLBACK", "SAVEPOINT",
      "RELEASE"] ++ if d.replaces then ["REPLACE"] else []) <|> pure ""
  match opening with
  | "INSERT" => readInsert d false
  | "REPLACE" => readInsert d true
  | "UPDATE" => readUpdate d
  | "DELETE" => readDelete d
  | "CREATE" => readCreate d
  | "DROP" => readDrop d
  | "BEGIN" => readBegin d
  | "COMMIT" => do
    discard <| optional (oneOf d.transactionWords)
    return .commit
  | "ROLLBACK" => readRollback d
  | "SAVEPOINT" => return .savepoint (← name d)
  | "RELEASE" => do
    discard <| present (keyword "SAVEPOINT")
    return .release (← name d)
  | _ => return .query (← Query.read d)

end Statement

/-- The runs of tokens up to each stop, stops included. -/
def runs : List Token → List (List Token)
  | [] => []
  | t :: ts =>
    if t.lexeme = .stop then [t] :: runs ts
    else
      match runs ts with
      | [] => [[t]]
      | run :: more => (t :: run) :: more

/-- The runs of tokens up to each stop that are more than a stop. -/
def chunks (ts : List Token) : List (List Token) :=
  (runs ts).filter fun run => run.head?.any fun t => t.lexeme != .stop

end DeferredTx.Sql
