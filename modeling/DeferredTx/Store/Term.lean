import DeferredTx.Sql.Expr.Basic
import DeferredTx.Store.Catalog
import DeferredTx.Store.Operator

/-!
# Expressions over rows

Before an expression is evaluated its names are looked up. What comes out is a term, whose value on a
row is always defined.

* `Term`, `Term.value`: terms, and their values on a row.
* `Scope`: the columns and aliases that names may mean.
* `Term.resolve?`: the term of an expression.
-/

namespace DeferredTx.Store

open Sql (UnaryOp BinaryOp Expr Name)

/-- An expression whose names have been looked up. -/
inductive Term where
  | constant (v : Value)
  /-- The value at a place of the row; its affinity is that of a column, if it comes from one. -/
  | column (place : Nat) (affinity : Option Affinity)
  /-- The number of rows. -/
  | rowCount
  | unary (op : UnaryOp) (t : Term)
  | binary (op : BinaryOp) (a b : Term)
  /-- Whether a term is true, or is false; null is neither. -/
  | isTruth (truth : Bool) (t : Term)
  deriving Repr

/-- A row, and how many rows there are. -/
structure RowView where
  values : List Value
  rows : Nat := 0

namespace Term

/-- The affinity of a term, if it is a column. -/
def affinity? : Term → Option Affinity
  | column _ a => a
  | _ => none

/-- Whether rows are counted in a term. -/
def counts : Term → Bool
  | rowCount => true
  | unary _ t | isTruth _ t => t.counts
  | binary _ a b => a.counts || b.counts
  | constant _ | column .. => false

/-- The value of an operator in front of a value. -/
def unaryValue (op : UnaryOp) (v : Value) : Value :=
  match op with
  | .not => .ofTruth (v.truth.map (!·))
  | .minus => v.number.negate
  | .plus => v

/-- The value of a term on a row. -/
def value (f : RowView) : Term → Value
  | constant v => v
  | column place _ => (f.values[place]?).getD .null
  | rowCount => .integer f.rows
  | unary op t => unaryValue op (t.value f)
  | binary op a b =>
    DeferredTx.Store.binary op (comparisonAffinity a.affinity? b.affinity?) (a.value f) (b.value f)
  | isTruth truth t => .ofTruth (some ((t.value f).truth == some truth))

end Term

/-- A column that a name may mean. -/
structure Field where
  name : String
  /-- The words of its type, if it is the column of a table. -/
  type : Option String
  affinity : Option Affinity
  deriving DecidableEq, Repr

/-- What names may mean: columns in the first place, then aliases. -/
structure Scope where
  fields : List Field := []
  aliases : List (String × Term) := []
  /-- Whether rows may be counted. -/
  mayCount : Bool := false

namespace Scope

/-- The place of a column. -/
def field? (s : Scope) (name : String) : Option Nat :=
  s.fields.findIdx? fun f => Text.sameName f.name name

/-- The term of an alias. -/
def alias? (s : Scope) (name : String) : Option Term :=
  (s.aliases.find? fun a => Text.sameName a.1 name).map (·.2)

/-- What a name means. One in double quotes that means nothing is a text. -/
def term? (s : Scope) (n : Name) : Option Term :=
  match s.field? n.text with
  | some place => some (.column place ((s.fields[place]?).bind Field.affinity))
  | none =>
    match s.alias? n.text with
    | some t => if t.counts && !s.mayCount then none else some t
    | none => if n.quote = some '"' then some (.constant (.text n.text)) else none

end Scope

/-- The value of digits of base sixteen, which stand for the bits of a whole number. -/
def hexInteger? (digits : List Char) : Option Int :=
  let n := digits.foldl (fun n c => 16 * n + ((Text.hexDigit? c).getD 0)) 0
  if (digits.dropWhile (· == '0')).length ≤ 16 then some (Int.bmod n 18446744073709551616) else none

/-- The value of a number as it is written, with its sign. -/
def literalNumber? (negative : Bool) (text : String) : Option Value :=
  match text.toList with
  | '0' :: x :: digits =>
    if x = 'x' ∨ x = 'X' then
      (hexInteger? digits).map fun n => .ofInt (if negative then -n else n)
    else some (.ofNumeral negative text.toList)
  | cs => some (.ofNumeral negative cs)

/-- The bytes written by digits of base sixteen. -/
def hexBytes? : List Char → Option (List UInt8)
  | [] => some []
  | [_] => none
  | a :: b :: r =>
    match Text.hexDigit? a, Text.hexDigit? b, hexBytes? r with
    | some m, some n, some bytes => some (UInt8.ofNat (16 * m + n) :: bytes)
    | _, _, _ => none

/-- Whether a parameter is a question mark or a number behind a sign; none has a value. -/
def isNumbered (parameter : String) : Bool :=
  let digits := parameter.toList.drop 1
  digits.all Char.isDigit && (parameter.toList.head? == some '?' || !digits.isEmpty)

/-- The expression inside all its parentheses. -/
def bare : Expr → Expr
  | .paren e => bare e
  | e => e

/-- Whether an expression is a zero as it is written. -/
def isZero : Expr → Bool
  | .number text =>
    match literalNumber? false text with
    | some (.integer n) => n == 0
    | _ => false
  | .paren e => isZero e
  | .binary .and a b => isZero a || isZero b
  | _ => false

/-- The number that an expression is, signs included, if it is nothing else. What stands beside a
written zero in a conjunction is not looked at. -/
def number? : Expr → Option Value
  | .number text => literalNumber? false text
  | .paren e | .unary .plus e => number? e
  | .unary .minus e =>
    match bare e with
    | .number text => literalNumber? true text
    | _ => none
  | .binary .and a b => if isZero a || isZero b then some (.integer 0) else none
  | _ => none

/-- The term of an operator between terms. Behind `IS` a written truth value asks for the truth of
the left side. -/
def comparingTruth (op : BinaryOp) (t u : Term) (right : Expr) : Term :=
  match op, right with
  | .is, .bool truth => .isTruth truth t
  | .isNot, .bool truth => .unary .not (.isTruth truth t)
  | _, _ => .binary op t u

/-- The term of an expression; `none` if it cannot be evaluated here. -/
def Term.resolve? (s : Scope) (e : Expr) : Option Term :=
  match number? e with
  | some v => some (.constant v)
  | none =>
    match e with
    | .number _ | .dollar .. => none
    | .string _ text => some (.constant (.text text))
    | .bytes digits => (hexBytes? digits.toList).map fun bytes => .constant (.blob bytes)
    | .null => some (.constant .null)
    | .bool b => some (.constant (.ofTruth (some b)))
    | .name n => s.term? n
    | .parameter text => if isNumbered text then some (.constant .null) else none
    | .ofAll f => if s.mayCount && Text.sameName f.text "count" then some .rowCount else none
    | .paren e => resolve? s e
    | .unary op e => (resolve? s e).map (.unary op)
    | .binary op a b =>
      match resolve? s a, resolve? s b with
      | some t, some u => some (comparingTruth op t u (bare b))
      | _, _ => none

end DeferredTx.Store
