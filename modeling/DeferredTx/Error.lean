import DeferredTx.Savepoint

/-!
# Errors

What can go wrong between a caller and a database, by cause.

* `StatementError`: what a database answers to a statement that it does not carry out.
* `DbError`: every error of a connection and of the controller above it, with its `kind` and its
  `message`.

An error of a database reaches the caller unchanged through every layer.
-/

namespace DeferredTx

/-- The kinds that callers tell errors apart by. -/
inductive ErrorKind where
  | malformedStatement
  | illegalState
  | connection
  | query
  | unsupportedDatabase
  | database
  | io
  deriving DecidableEq, Repr

/-- The words in front of every message of a kind. -/
def ErrorKind.label : ErrorKind → String
  | .malformedStatement => "Malformed statement: "
  | .illegalState => "Illegal state: "
  | .connection => "Connection error: "
  | .query => "Query error: "
  | .unsupportedDatabase => "Unsupported database: "
  | .database => "Database error: "
  | .io => "IO error: "

/-- The calls that make sense only inside a transaction of the caller's. -/
inductive TransactionCall where
  | commit
  | rollback
  | setSavepoint
  | rollbackToSavepoint
  deriving DecidableEq, Repr

/-- The words for a call in a message. -/
def TransactionCall.label : TransactionCall → String
  | .commit => "commit"
  | .rollback => "rollback"
  | .setSavepoint => "set savepoint"
  | .rollbackToSavepoint => "rollback savepoint"

/-- What a database answers to a statement that it does not carry out. -/
inductive StatementError where
  /-- The database refuses the statement, for a reason in its own words. -/
  | refused (reason : String)
  /-- A value of the result cannot be read as the type of its column, for a reason in the words of the
  driver. -/
  | badColumn (name type reason : String)
  deriving DecidableEq, Repr

/-- An error of a connection or of the controller above it. -/
inductive DbError where
  /-- A literal in the text is not closed. -/
  | unclosedLiteral (sql : String)
  /-- The call is refused while auto-commit is on. -/
  | inAutoCommit (call : TransactionCall)
  /-- The name may not be used for a savepoint. -/
  | savepointName (fault : Savepoint.NameFault)
  /-- The address names no known database. -/
  | unknownDatabase (url : String)
  /-- No connection could be made, for a reason in the words of the library that makes them. -/
  | notConnected (reason : String)
  /-- The script does not parse in the dialect of its database, for a reason in the words of the library
  that splits scripts. -/
  | unreadableScript (reason : String)
  /-- A statement failed. -/
  | statement (e : StatementError)
  /-- Any error that a wrapped connection reports in words of its own. -/
  | reported (kind : ErrorKind) (detail : String)
  deriving DecidableEq, Repr

namespace DbError

/-- The kind of an error. -/
def kind : DbError → ErrorKind
  | unclosedLiteral _ => .malformedStatement
  | inAutoCommit _ => .illegalState
  | savepointName _ => .query
  | unknownDatabase _ => .unsupportedDatabase
  | notConnected _ => .connection
  | unreadableScript _ => .query
  | statement (.refused _) => .database
  | statement (.badColumn ..) => .query
  | reported kind _ => kind

/-- What an error says behind the words for its kind. -/
def detail : DbError → String
  | unclosedLiteral sql => "SQL statement contains an unclosed literal: " ++ sql
  | inAutoCommit call => "Cannot " ++ call.label ++ " when in autocommit"
  | savepointName fault => fault.message
  | unknownDatabase url => "Cannot determine database type from URL: " ++ url
  | notConnected reason => "Failed to connect: " ++ reason
  | unreadableScript reason => "SQL parse error: " ++ reason
  | statement (.refused reason) => reason
  | statement (.badColumn name type reason) =>
    "Failed to extract column '" ++ name ++ "' as " ++ type ++ ": " ++ reason
  | reported _ detail => detail

/-- The whole text of an error. -/
def message (e : DbError) : String :=
  e.kind.label ++ e.detail

end DbError
end DeferredTx
