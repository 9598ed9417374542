import DeferredTx.Statement.Hint

/-!
# Kinds of statements

The first word of a cleaned statement decides its kind; the statement itself is not validated.

* `Kind`: query, update, schema change, or none of these.
* `isQuery`, `isUpdate`, `isSchemaChange`: the tests on a cleaned text; only a query may stand behind
  a hint.
* `classify`: the cleaned text of a statement with its kind.
* `isWrite`: whether a text changes data or schema. A text that cannot be scanned counts as reading,
  and the database gets to refuse it.
-/

namespace DeferredTx.Statement

open Text

/-- What a statement does, judged by its first word. -/
inductive Kind where
  | schemaChange
  | query
  | update
  | unknown
  deriving DecidableEq, Repr

/-- The name of a kind. -/
def Kind.label : Kind → String
  | .schemaChange => "DDL"
  | .query => "QUERY"
  | .update => "UPDATE"
  | .unknown => "UNKNOWN"

/-- The words that open an update. -/
def updateWords : List (List Char) :=
  [['I', 'N', 'S', 'E', 'R', 'T'], ['U', 'P', 'D', 'A', 'T', 'E'], ['D', 'E', 'L', 'E', 'T', 'E']]

/-- The words that open a change of the schema. -/
def schemaWords : List (List Char) :=
  [['C', 'R', 'E', 'A', 'T', 'E'], ['A', 'L', 'T', 'E', 'R'], ['D', 'R', 'O', 'P']]

/-- Whether the first token is one of `words`, in any case. -/
def opensWith (words : List (List Char)) (sql : String) : Bool :=
  match word? isAsciiBlank sql.toList with
  | some (token, _) => words.any fun w => sameFold token w
  | none => false

/-- Whether a cleaned text is a query, possibly behind a hint. -/
def isQuery (sql : String) : Except DbError Bool :=
  if sql.toList.head? = some '@' then (stripHint sql).map (opensWith queryWords)
  else .ok (opensWith queryWords sql)

/-- Whether a cleaned text inserts, updates or deletes rows. -/
def isUpdate (sql : String) : Bool :=
  opensWith updateWords sql

/-- Whether a cleaned text changes the schema. -/
def isSchemaChange (sql : String) : Bool :=
  opensWith schemaWords sql

/-- A cleaned statement with its kind. -/
structure Classified where
  kind : Kind
  sql : String
  deriving DecidableEq, Repr

/-- The kind of a cleaned text. -/
def kindOf (sql : String) : Except DbError Kind :=
  (isQuery sql).map fun query =>
    if query then .query
    else if isUpdate sql then .update
    else if isSchemaChange sql then .schemaChange
    else .unknown

/-- Cleans a text and tells its kind. -/
def classify (sql : String) : Except DbError Classified := do
  let cleaned ← clean sql
  let kind ← kindOf cleaned
  return ⟨kind, cleaned⟩

/-- Whether a text changes data or schema; `false` for one that cannot be scanned. -/
def isWrite (sql : String) : Bool :=
  match classify sql with
  | .ok c => c.kind == .update || c.kind == .schemaChange
  | .error _ => false

end DeferredTx.Statement
