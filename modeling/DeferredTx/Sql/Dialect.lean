import DeferredTx.DatabaseKind
import DeferredTx.Text.Blank

/-!
# SQL dialects

A dialect says how SQL text is cut into tokens and which words may serve as names. Three dialects are
those in which scripts are read before they are split; the fourth is that of the in-memory store,
which reads every text that is sent to it once more.

* `Dialect`: the decisions in which the dialects differ.
* `Dialect.postgres`, `Dialect.mysql`, `Dialect.sqlite`, `Dialect.store`: the four dialects.
* `Dialect.ofKind`: the dialect of a kind of database.
-/

namespace DeferredTx.Sql

/-- What a dollar sign in front of something other than a name begins. -/
inductive DollarUse where
  /-- A parameter. -/
  | parameter
  /-- A text between two dollar signs on each side, or a parameter. -/
  | text
  deriving DecidableEq, Repr

/-- How SQL text is cut into tokens, and which words may serve as names. -/
structure Dialect where
  /-- The characters between tokens. -/
  isBlank : Char → Bool
  /-- The characters that a name begins with. -/
  startsName : Char → Bool
  /-- The further characters of a name. -/
  continuesName : Char → Bool
  /-- The opening quotes of names, each with the closing one. -/
  nameQuotes : List (Char × Char)
  /-- The quotes of strings. -/
  textQuotes : List Char := ['\'']
  /-- Whether a backslash in a string stands for a character together with the next one. -/
  backslash : Bool := false
  /-- Whether a hash begins a comment. -/
  hashComment : Bool := false
  /-- Whether two hyphens begin a comment only in front of a blank. -/
  dashNeedsBlank : Bool := false
  /-- Whether a carriage return ends a comment. -/
  returnEndsComment : Bool := false
  /-- Whether block comments nest. -/
  nestedComments : Bool := false
  /-- Whether a block comment may stay open at the end of the text. -/
  openComments : Bool := false
  /-- What a dollar sign begins. -/
  dollar : DollarUse := .parameter
  /-- Whether a question mark is a parameter. -/
  questionMark : Bool := true
  /-- Whether characters of operators that follow each other are one operator, and a hash is one. -/
  freeOperators : Bool := false
  /-- Whether `IS` compares any two values; otherwise it asks for `NULL` only. -/
  comparesByIs : Bool := false
  /-- Whether a name may begin with digits. -/
  digitNames : Bool := false
  /-- Whether digits in front of a letter are refused. -/
  strictNumbers : Bool := false
  /-- Whether digits of base sixteen behind `0x` are bytes; otherwise they are a number. -/
  hexBytes : Bool := true
  /-- The words that are no names, in upper case. -/
  reserved : List String := []
  /-- The words that are no aliases without `AS`, in upper case. -/
  notAlias : List String
  /-- Whether the items of a selection may be missing in front of `FROM`. -/
  emptySelection : Bool := false
  /-- Whether rows may be replaced. -/
  replaces : Bool := false
  /-- Whether a table may have no columns. -/
  emptyTables : Bool := true
  /-- Whether a column may have no type. -/
  untypedColumns : Bool := false
  /-- Whether a type may have any number of words. -/
  longTypes : Bool := false
  /-- The words for the mode that a transaction may be begun in. -/
  beginModes : List String := []
  /-- The words that may stand for a transaction behind `BEGIN`, `COMMIT` and `ROLLBACK`. -/
  transactionWords : List String := ["TRANSACTION", "WORK"]
  /-- How many levels of a statement may lie within each other, the statement included; `none` for
  any number. Queries, and operands that are still awaited, are levels. -/
  nesting : Option Nat := none
  /-- How high the tree of an expression may be; `none` for any height. -/
  height : Option Nat := none

namespace Dialect

/-- The dialect one level further inside. -/
def inner (d : Dialect) : Dialect :=
  { d with nesting := d.nesting.map (· - 1) }

/-- Whether a character is a letter of ASCII. -/
def isLetter (c : Char) : Bool := c.isAlpha

/-- Whether a character lies outside ASCII but in the first plane. -/
def isForeign (c : Char) : Bool :=
  0x7F ≤ c.toNat && c.toNat ≤ 0xFFFF

/-- The words that scripts do not take for an alias. -/
def scriptNotAlias : List String :=
  ["WITH", "EXPLAIN", "ANALYZE", "SELECT", "WHERE", "GROUP", "SORT", "HAVING", "ORDER", "TOP",
   "LATERAL", "VIEW", "LIMIT", "OFFSET", "FETCH", "UNION", "EXCEPT", "INTERSECT", "MINUS", "CLUSTER",
   "DISTRIBUTE", "RETURNING", "FROM", "INTO", "END"]

/-- How many levels of a statement scripts may have within each other. -/
def scriptNesting : Nat := 50

/-- The modes of a transaction. -/
def transactionModes : List String := ["DEFERRED", "IMMEDIATE", "EXCLUSIVE"]

/-- Scripts for PostgreSQL. -/
def postgres : Dialect where
  isBlank := Text.isBlank
  startsName c := isLetter c || c == '_' || 0x7F < c.toNat && !Text.isBlank c
  continuesName c := c.isAlphanum || c == '_' || c == '$' || 0x7F < c.toNat && !Text.isBlank c
  nameQuotes := [('"', '"')]
  returnEndsComment := true
  nestedComments := true
  dollar := .text
  questionMark := false
  freeOperators := true
  notAlias := scriptNotAlias
  nesting := some scriptNesting
  emptySelection := true

/-- Scripts for MySQL and MariaDB. -/
def mysql : Dialect where
  isBlank := Text.isBlank
  startsName c := isLetter c || c == '_' || c == '$' || c == '@' || 0x7F < c.toNat && isForeign c
  continuesName c :=
    c.isAlphanum || c == '_' || c == '$' || c == '@' || 0x7F < c.toNat && isForeign c
  nameQuotes := [('\x60', '\x60')]
  textQuotes := ['\'', '"']
  backslash := true
  hashComment := true
  dashNeedsBlank := true
  digitNames := true
  notAlias := scriptNotAlias
  nesting := some scriptNesting
  replaces := true

/-- Scripts for SQLite. -/
def sqlite : Dialect where
  isBlank := Text.isBlank
  startsName c := isLetter c || c == '_' || isForeign c
  continuesName c := c.isAlphanum || c == '_' || isForeign c
  nameQuotes := [('"', '"'), ('\x60', '\x60'), ('[', ']')]
  notAlias := scriptNotAlias
  nesting := some scriptNesting
  untypedColumns := true
  beginModes := transactionModes

/-- The words that the store takes for no name. -/
def storeReserved : List String :=
  ["ADD", "ALL", "ALTER", "AND", "AS", "AUTOINCREMENT", "BETWEEN", "CASE", "CHECK", "COLLATE",
   "COMMIT", "CONSTRAINT", "CREATE", "DEFAULT", "DEFERRABLE", "DELETE", "DISTINCT", "DROP", "ELSE",
   "ESCAPE", "EXCEPT", "EXISTS", "FOREIGN", "FROM", "GROUP", "HAVING", "IN", "INDEX", "INSERT",
   "INTERSECT", "INTO", "IS", "ISNULL", "LIMIT", "NOT", "NOTHING", "NOTNULL", "NULL", "ON", "OR",
   "ORDER", "PRIMARY", "REFERENCES", "RETURNING", "SELECT", "SET", "TABLE", "THEN", "TO",
   "TRANSACTION", "UNION", "UNIQUE", "UPDATE", "USING", "VALUES", "WHEN", "WHERE"]

/-- The texts sent to the store. -/
def store : Dialect where
  isBlank := Text.isAsciiBlank
  startsName c := isLetter c || c == '_' || 0x7F < c.toNat
  continuesName c := c.isAlphanum || c == '_' || c == '$' || 0x7F < c.toNat
  nameQuotes := [('"', '"'), ('\x60', '\x60'), ('[', ']')]
  openComments := true
  comparesByIs := true
  strictNumbers := true
  hexBytes := false
  reserved := storeReserved
  notAlias := storeReserved
  replaces := true
  emptyTables := false
  untypedColumns := true
  longTypes := true
  beginModes := transactionModes
  transactionWords := ["TRANSACTION"]
  height := some 1000

/-- The dialect of scripts for a kind of database. -/
def ofKind : DatabaseKind → Dialect
  | .postgres => postgres
  | .mysql | .mariadb => mysql
  | .sqlite => sqlite

end Dialect
end DeferredTx.Sql
