import DeferredTx.Sql.Name

/-!
# Expressions

* `Expr`: an expression, with the parentheses that are written in it.
* `Expr.render`: its text, with one blank around operators and none inside parentheses.
* `Expr.height`: the height of its tree.
-/

namespace DeferredTx.Sql

/-- Operators in front of their operand. -/
inductive UnaryOp where
  | not
  | minus
  | plus
  deriving DecidableEq, Repr

/-- Operators between their operands. -/
inductive BinaryOp where
  | or
  | and
  | eq
  | ne
  /-- Equality in which `NULL` equals itself. -/
  | is
  | isNot
  | lt
  | le
  | gt
  | ge
  | add
  | sub
  | mul
  | div
  | rem
  | concat
  /-- An operator of some dialect. -/
  | other (text : String)
  deriving DecidableEq, Repr

/-- The text of an operator in front of its operand. -/
def UnaryOp.render : UnaryOp → String
  | not => "NOT "
  | minus => "-"
  | plus => "+"

/-- The text of an operator between its operands. -/
def BinaryOp.render : BinaryOp → String
  | or => "OR"
  | and => "AND"
  | eq => "="
  | ne => "<>"
  | is => "IS"
  | isNot => "IS NOT"
  | lt => "<"
  | le => "<="
  | gt => ">"
  | ge => ">="
  | add => "+"
  | sub => "-"
  | mul => "*"
  | div => "/"
  | rem => "%"
  | concat => "||"
  | other text => text

/-- How tightly an operator binds. -/
def UnaryOp.level : UnaryOp → Nat
  | not => 3
  | minus | plus => 9

/-- How tightly an operator binds. -/
def BinaryOp.level : BinaryOp → Nat
  | or => 1
  | and => 2
  | eq | ne | is | isNot => 4
  | lt | le | gt | ge => 5
  | add | sub | other _ => 6
  | mul | div | rem => 7
  | concat => 8

/-- An expression. -/
inductive Expr where
  | number (text : String)
  | string (quote : Char) (text : String)
  /-- A text between dollar signs, with the tag inside them. -/
  | dollar (tag text : String)
  | bytes (digits : String)
  | null
  | bool (b : Bool)
  | name (n : Name)
  | parameter (text : String)
  /-- A function of all rows. -/
  | ofAll (function : Name)
  | paren (e : Expr)
  | unary (op : UnaryOp) (e : Expr)
  | binary (op : BinaryOp) (a b : Expr)
  deriving DecidableEq, Repr

/-- The text of an expression. -/
def Expr.render : Expr → String
  | number text => text
  | string quote text => quoted quote text
  | dollar tag text => "$" ++ tag ++ "$" ++ text ++ "$" ++ tag ++ "$"
  | bytes digits => "X'" ++ digits ++ "'"
  | null => "NULL"
  | bool b => toString b
  | name n => n.render
  | parameter text => text
  | ofAll function => function.render ++ "(*)"
  | paren e => "(" ++ e.render ++ ")"
  | unary op e => op.render ++ e.render
  | binary op a b => a.render ++ " " ++ op.render ++ " " ++ b.render

/-- The height of the tree of an expression; parentheses do not count. -/
def Expr.height : Expr → Nat
  | paren e => e.height
  | unary _ e => e.height + 1
  | binary _ a b => max a.height b.height + 1
  | _ => 1

end DeferredTx.Sql
