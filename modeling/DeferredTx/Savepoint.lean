import DeferredTx.Text.Blank

/-!
# Savepoints

A savepoint is a point inside a transaction that can be rolled back to. It has a number, given by
the connection that made it, and possibly a name chosen by the caller.

* `Savepoint.sqlName`: the identifier that stands for it in SQL.
* `Savepoint.checkName`: the identifiers that may be put into SQL text, since a savepoint statement
  takes no parameters: a letter or underscore, then letters, digits and underscores, in at most 64
  bytes.
-/

namespace DeferredTx

/-- A point inside a transaction that can be rolled back to. -/
structure Savepoint where
  /-- The number given by the connection. -/
  id : UInt32
  /-- The name chosen by the caller. -/
  name : Option String
  deriving DecidableEq, Repr

namespace Savepoint

/-- The identifier that stands for the savepoint in SQL: its name, or one made from its number. -/
def sqlName (s : Savepoint) : String :=
  match s.name with
  | some name => name
  | none => "sp_" ++ toString s.id.toNat

/-- The longest name in bytes. -/
def maxNameBytes : Nat := 64

/-- Why a name is refused. -/
inductive NameFault where
  | empty
  /-- More bytes than allowed. -/
  | tooLong (bytes : Nat)
  /-- A character other than an ASCII letter, an ASCII digit or an underscore. -/
  | badCharacter (name : String)
  /-- A digit in front. -/
  | leadingDigit (name : String)
  deriving DecidableEq, Repr

/-- The wording of a refusal. -/
def NameFault.message : NameFault → String
  | .empty => "Savepoint name cannot be empty"
  | .tooLong bytes =>
    "Savepoint name too long: " ++ toString bytes ++ " characters (max " ++ toString maxNameBytes
      ++ ")"
  | .badCharacter name =>
    "Invalid savepoint name: '" ++ name ++ "'. Only alphanumeric and underscore allowed"
  | .leadingDigit name => "Savepoint name cannot start with digit: '" ++ name ++ "'"

/-- The characters of a name: ASCII letters, ASCII digits and the underscore. -/
def isNameChar (c : Char) : Bool :=
  c.isAlphanum || c == '_'

/-- Refuses a name that may not be put into SQL text; the checks are made in this order. -/
def checkName (name : String) : Except NameFault Unit :=
  if name.toList = [] then .error .empty
  else if maxNameBytes < name.utf8ByteSize then .error (.tooLong name.utf8ByteSize)
  else if name.toList.all isNameChar then
    if name.toList.head?.any Char.isDigit then .error (.leadingDigit name) else .ok ()
  else .error (.badCharacter name)

end Savepoint
end DeferredTx
