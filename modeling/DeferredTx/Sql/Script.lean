import DeferredTx.Error
import DeferredTx.Sql.Statement.Reader

/-!
# Splitting scripts

A script is read statement by statement in the dialect of its database, and each statement is printed
in canonical form. Empty statements and comments vanish. One that cannot be read fails the script.

* `Script.read?`: the statements of a script.
* `Script.split`: their texts.
-/

namespace DeferredTx.Sql.Script

/-- The statements of runs of tokens. The word `END` behind a statement ends the script. -/
def readChunks? (d : Dialect) : List (List Token) → Option (List Statement)
  | [] => some []
  | chunk :: more =>
    match Statement.read d chunk with
    | some (s, t :: _) =>
      if t.lexeme = .stop then (readChunks? d more).map (s :: ·)
      else if t.isKeyword "END" then some [s]
      else none
    | _ => none

/-- The statements of a script; `none` if it cannot be cut into tokens or a statement cannot be
read. -/
def read? (d : Dialect) (script : String) : Option (List Statement) :=
  let ts := tokens d script.toList
  if ts.any fun t => t.lexeme == .illegal then none else readChunks? d (chunks ts)

/-- The statements of a script for a kind of database, each in canonical form. -/
def split (kind : DatabaseKind) (script : String) : Except DbError (List String) :=
  match read? (.ofKind kind) script with
  | some statements => .ok (statements.map Statement.render)
  | none => .error (.unreadableScript "a statement cannot be read")

end DeferredTx.Sql.Script
