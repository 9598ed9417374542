import DeferredTx.Sql.Select

/-!
# Statements of SQL

* `Statement`: the statements, as syntax trees.
* `Statement.render`: the canonical text: keywords and known types in upper case, one blank between
  tokens and around operators, a comma and a blank between the items of a list.
-/

namespace DeferredTx.Sql

/-- The type of a column as it is written: its words, and the sizes behind them in parentheses. -/
structure ColumnType where
  words : List String
  sizes : List String := []
  deriving DecidableEq, Repr

/-- What is demanded of the values of a column. -/
inductive ColumnRule where
  | notNull
  | primaryKey
  deriving DecidableEq, Repr

/-- A column of a new table. -/
structure ColumnDef where
  name : Name
  type : Option ColumnType
  rules : List ColumnRule := []
  deriving DecidableEq, Repr

/-- A statement. -/
inductive Statement where
  | query (q : Query)
  /-- Inserts rows; rows in their way are replaced or not. -/
  | insert (replacing : Bool) (table : Name) (columns : List Name) (rows : List (List Expr))
  | update (table : Name) (changes : List (Name × Expr)) (condition : Option Expr)
  | delete (table : Name) (condition : Option Expr)
  | createTable (unlessExists : Bool) (table : Name) (columns : List ColumnDef)
  | dropTable (ifExists : Bool) (table : Name)
  /-- Begins a transaction, with the words behind `BEGIN`. -/
  | begin (words : List String)
  | commit
  | rollback
  | savepoint (name : Name)
  | release (name : Name)
  | rollbackTo (name : Name)
  deriving DecidableEq, Repr

/-- The types that are written in upper case. -/
def knownTypes : List String :=
  ["BIGINT", "BINARY", "BLOB", "BOOL", "BOOLEAN", "BYTEA", "BYTES", "CHAR", "CHARACTER", "CLOB",
   "DATE", "DATETIME", "DEC", "DECIMAL", "DOUBLE", "DOUBLE PRECISION", "FLOAT", "FLOAT4", "FLOAT8",
   "INT", "INT2", "INT4", "INT8", "INTEGER", "JSON", "JSONB", "LONGBLOB", "LONGTEXT", "MEDIUMBLOB",
   "MEDIUMINT", "MEDIUMTEXT", "NUMERIC", "NVARCHAR", "REAL", "SMALLINT", "TEXT", "TIME",
   "TIMESTAMP", "TINYBLOB", "TINYINT", "TINYTEXT", "UUID", "VARBINARY", "VARCHAR"]

/-- The text of a type. -/
def ColumnType.render (t : ColumnType) : String :=
  let words := String.intercalate " " t.words
  (if isOneOf words knownTypes then words.toUpper else words)
    ++ if t.sizes.isEmpty then "" else "(" ++ String.intercalate "," t.sizes ++ ")"

/-- The text of a rule. -/
def ColumnRule.render : ColumnRule → String
  | notNull => "NOT NULL"
  | primaryKey => "PRIMARY KEY"

/-- The text of a column of a new table. -/
def ColumnDef.render (c : ColumnDef) : String :=
  String.intercalate " "
    (c.name.render :: (c.type.map ColumnType.render).toList ++ c.rules.map ColumnRule.render)

/-- Texts with commas between them, in parentheses. -/
def listText (texts : List String) : String :=
  "(" ++ commas texts ++ ")"

/-- The text of a statement. -/
def Statement.render : Statement → String
  | query q => q.render
  | insert replacing table columns rows =>
    (if replacing then "REPLACE" else "INSERT") ++ " INTO " ++ table.render
      ++ (if columns.isEmpty then "" else " " ++ listText (columns.map Name.render))
      ++ " VALUES " ++ commas (rows.map fun r => listText (r.map Expr.render))
  | update table changes condition =>
    "UPDATE " ++ table.render ++ " SET "
      ++ commas (changes.map fun c => c.1.render ++ " = " ++ c.2.render)
      ++ clauseText "WHERE" (condition.map Expr.render)
  | delete table condition =>
    "DELETE FROM " ++ table.render ++ clauseText "WHERE" (condition.map Expr.render)
  | createTable unlessExists table columns =>
    "CREATE TABLE " ++ (if unlessExists then "IF NOT EXISTS " else "") ++ table.render ++ " "
      ++ listText (columns.map ColumnDef.render)
  | dropTable ifExists table =>
    "DROP TABLE " ++ (if ifExists then "IF EXISTS " else "") ++ table.render
  | begin words => String.intercalate " " ("BEGIN" :: words)
  | commit => "COMMIT"
  | rollback => "ROLLBACK"
  | savepoint name => "SAVEPOINT " ++ name.render
  | release name => "RELEASE SAVEPOINT " ++ name.render
  | rollbackTo name => "ROLLBACK TO SAVEPOINT " ++ name.render

end DeferredTx.Sql
