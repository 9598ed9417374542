import DeferredTx.Sql.Expr.Basic
import DeferredTx.Store.Value

/-!
# Operators on values

* `arithmetic`: sums, differences, products, quotients and remainders. Whole numbers stay whole as
  long as the result fits; a division by zero is null.
* `comparison`: comparisons, after the values have been converted by an affinity. Null compares with
  nothing.
* `conjunction`, `disjunction`: connectives in which null is neither true nor false.
-/

namespace DeferredTx.Store

open Sql (BinaryOp)

/-- The exact result of an operator on whole numbers; `none` for a division by zero. -/
def wholeResult? (op : BinaryOp) (a b : Int) : Option Int :=
  match op with
  | .add => some (a + b)
  | .sub => some (a - b)
  | .mul => some (a * b)
  | .div => if b = 0 then none else some (a.tdiv b)
  | _ => if b = 0 then none else some (a.tmod b)

/-- A double without its fraction, as a whole number of 64 bits. -/
def truncated (x : Float) : Int :=
  match Decimal.Binary.ofFloat? x with
  | none => if 0 < x then integerRange.2 else integerRange.1
  | some b =>
    let n := Int.ofNat (b.num / b.den) * if b.negative then -1 else 1
    max integerRange.1 (min integerRange.2 n)

/-- The result of an operator on doubles. -/
def realResult (op : BinaryOp) (x y : Float) : Value :=
  match op with
  | .add => .ofReal (x + y)
  | .sub => .ofReal (x - y)
  | .mul => .ofReal (x * y)
  | .div => if y == 0 then .null else .ofReal (x / y)
  | _ =>
    if truncated y = 0 then .null
    else .real (Float.ofInt ((truncated x).tmod (truncated y)))

/-- The result of an arithmetic operator. -/
def arithmetic (op : BinaryOp) (a b : Value) : Value :=
  match a.number, b.number with
  | .null, _ | _, .null => .null
  | .integer m, .integer n =>
    match wholeResult? op m n with
    | none => .null
    | some k => if fits k then .integer k else realResult op (Float.ofInt m) (Float.ofInt n)
  | x, y => realResult op x.toReal y.toReal

/-- Whether two values in this order satisfy a comparison. -/
def satisfies (op : BinaryOp) (o : Ordering) : Bool :=
  match op with
  | .eq => o == .eq
  | .ne => o != .eq
  | .lt => o == .lt
  | .le => o != .gt
  | .gt => o == .gt
  | _ => o != .lt

/-- The affinity of a comparison, from those of its sides: an expression that is no column has
none. -/
def comparisonAffinity : Option Affinity → Option Affinity → Affinity
  | some a, some b => if a.isNumeric || b.isNumeric then .numeric else .none
  | some a, none | none, some a => a
  | none, none => .none

/-- What becomes of a value in a comparison; a number stays as it is if numbers are preferred. -/
def prepared (a : Affinity) (v : Value) : Value :=
  match v with
  | .text _ => if a.isNumeric then Affinity.numeric.apply v else v
  | _ => if a = .text then a.apply v else v

/-- The result of a comparison. -/
def comparison (op : BinaryOp) (affinity : Affinity) (a b : Value) : Value :=
  match a, b with
  | .null, _ | _, .null => .null
  | a, b => .ofTruth (some (satisfies op ((prepared affinity a).order (prepared affinity b))))

/-- Whether two values are equal, null to null included. -/
def sameness (affinity : Affinity) (a b : Value) : Bool :=
  (prepared affinity a).order (prepared affinity b) == .eq

/-- Whether both hold. -/
def conjunction : Option Bool → Option Bool → Option Bool
  | some false, _ | _, some false => some false
  | some true, some true => some true
  | _, _ => none

/-- Whether one of the two holds. -/
def disjunction : Option Bool → Option Bool → Option Bool
  | some true, _ | _, some true => some true
  | some false, some false => some false
  | _, _ => none

/-- The result of an operator between two values. -/
def binary (op : BinaryOp) (affinity : Affinity) (a b : Value) : Value :=
  match op with
  | .or => .ofTruth (disjunction a.truth b.truth)
  | .and => .ofTruth (conjunction a.truth b.truth)
  | .eq | .ne | .lt | .le | .gt | .ge => comparison op affinity a b
  | .is => .ofTruth (some (sameness affinity a b))
  | .isNot => .ofTruth (some (!sameness affinity a b))
  | .add | .sub | .mul | .div | .rem => arithmetic op a b
  | .concat | .other _ =>
    match a, b with
    | .null, _ | _, .null => .null
    | a, b => .text (a.toText ++ b.toText)

end DeferredTx.Store
