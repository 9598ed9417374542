import DeferredTx.Sql.Expr.Basic
import DeferredTx.Sql.Reader

/-!
# Reading expressions

The tokens are taken one by one. What still waits for its right end lies on a stack of frames: open
parentheses, operators in front of the operand to come, and left operands with their operators.
Behind an operand, the frames that bind at least as tightly as the next operator are closed.

* `Expr.unwind`: closes frames.
* `Expr.read`: the expression at the front of a list of tokens.
-/

namespace DeferredTx.Sql

/-- What waits for the operand to come. -/
inductive Frame where
  | paren
  | unary (op : UnaryOp)
  | left (a : Expr) (op : BinaryOp)
  deriving Repr

/-- The operator that a token stands for between two operands. -/
def BinaryOp.ofToken? (t : Token) : Option BinaryOp :=
  match t.lexeme with
  | .symbol "=" | .symbol "==" => some .eq
  | .symbol "<>" | .symbol "!=" => some .ne
  | .symbol "<" => some .lt
  | .symbol "<=" => some .le
  | .symbol ">" => some .gt
  | .symbol ">=" => some .ge
  | .symbol "+" => some .add
  | .symbol "-" => some .sub
  | .symbol "*" => some .mul
  | .symbol "/" => some .div
  | .symbol "%" => some .rem
  | .symbol "||" => some .concat
  | .operator text => some (.other text)
  | .word w =>
    if Text.sameName w "AND" then some .and
    else if Text.sameName w "OR" then some .or
    else none
  | _ => none

namespace Expr

/-- The operand that a token is by itself. -/
def ofToken? (d : Dialect) (t : Token) : Option Expr :=
  match t.lexeme with
  | .word text =>
    if t.isKeyword "NULL" then some .null
    else if t.isKeyword "TRUE" then some (.bool true)
    else if t.isKeyword "FALSE" then some (.bool false)
    else if isOneOf text d.reserved then none
    else some (.name ⟨none, text⟩)
  | .name quote text => some (.name ⟨some quote, text⟩)
  | .string quote text => some (.string quote text)
  | .dollar tag text => some (.dollar tag text)
  | .bytes digits => some (.bytes digits)
  | .number text => some (.number text)
  | .parameter text => some (.parameter text)
  | .symbol _ | .operator _ | .stop | .illegal => none

/-- The frame that a symbol opens in front of an operand. -/
def frame? (t : Token) : Option Frame :=
  if t.isSymbol "(" then some .paren
  else if t.isSymbol "-" then some (.unary .minus)
  else if t.isSymbol "+" then some (.unary .plus)
  else none

/-- Whether an operand can begin with this token. -/
def begins (d : Dialect) (t : Token) : Bool :=
  t.isKeyword "NOT" || (frame? t).isSome || (ofToken? d t).isSome

/-- The frame that a token in front of others opens. The word `NOT` is an operator only in front of
an operand, otherwise a name. -/
def opened? (d : Dialect) (t : Token) (ts : List Token) : Option Frame :=
  if t.isKeyword "NOT" && ts.head?.any (begins d) then some (.unary .not) else frame? t

/-- Whether the dialect allows for one more frame on a stack. -/
def hasRoom (d : Dialect) (stack : List Frame) : Bool :=
  d.nesting.all (stack.length + 1 < ·)

/-- Closes the frames that bind at least as tightly as `level`, up to an open parenthesis. -/
def unwind (level : Nat) : List Frame → Expr → List Frame × Expr
  | .unary op :: stack, e =>
    if level ≤ op.level then unwind level stack (.unary op e) else (.unary op :: stack, e)
  | .left a op :: stack, e =>
    if level ≤ op.level then unwind level stack (.binary op a e) else (.left a op :: stack, e)
  | stack, e => (stack, e)

/-- The whole expression, if no parenthesis is open. -/
def close? (stack : List Frame) (e : Expr) : Option Expr :=
  match unwind 0 stack e with
  | ([], whole) => some whole
  | _ => none

/-- Reads on from a stack of frames, with the operand just read, if any. -/
def readFrom (d : Dialect) :
    List Frame → Option Expr → List Token → Option (Expr × List Token)
  | _, none, [] => none
  | stack, none, t :: ts =>
    match opened? d t ts, ofToken? d t with
    | some frame, _ => if hasRoom d stack then readFrom d (frame :: stack) none ts else none
    | none, none => none
    | none, some operand =>
      match operand, ts with
      | .name f, p :: s :: q :: rest =>
        if p.isSymbol "(" && s.isSymbol "*" && q.isSymbol ")" then
          readFrom d stack (some (.ofAll f)) rest
        else readFrom d stack (some operand) (p :: s :: q :: rest)
      | _, ts => readFrom d stack (some operand) ts
  | stack, some e, [] => (close? stack e).map fun whole => (whole, [])
  | stack, some e, t :: ts =>
    if let some op := BinaryOp.ofToken? t then
      let (stack, a) := unwind op.level stack e
      if hasRoom d stack then readFrom d (.left a op :: stack) none ts else none
    else if t.isKeyword "IS" then
      let negated := ts.head?.any fun n => n.isKeyword "NOT"
      let op := if negated then BinaryOp.isNot else BinaryOp.is
      let (stack, a) := unwind op.level stack e
      let rest := if negated then ts.drop 1 else ts
      if d.comparesByIs then readFrom d (.left a op :: stack) none rest
      else if rest.head?.any fun n => n.isKeyword "NULL" then
        readFrom d stack (some (.binary op a .null)) (rest.drop 1)
      else none
    else
      match unwind 0 stack e with
      | (.paren :: stack, inner) =>
        if t.isSymbol ")" then readFrom d stack (some (.paren inner)) ts else none
      | ([], whole) => some (whole, t :: ts)
      | _ => none
termination_by _ _ ts => ts.length
decreasing_by all_goals grind

/-- The expression at the front of a list of tokens. -/
def read (d : Dialect) : Reader Expr := do
  let e ← readFrom d [] none
  if d.height.any (· < e.height) then failure
  return e

end Expr
end DeferredTx.Sql
