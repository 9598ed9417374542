import DeferredTx.Sql.Select
import DeferredTx.Store.Term

/-!
# Evaluating selections

* `Relation`: columns with rows, as a selection takes them from a table and as it gives them.
* `Relation.select?`: what a selection gives.
* `Catalog.query?`: what a query gives. The selections named in front of it are evaluated where they
  are used; more uses within each other than there are names mean that one needs itself.
-/

namespace DeferredTx.Store

open Sql (Item OrderTerm Select Query Expr)

/-- Columns with rows. -/
structure Relation where
  fields : List Field
  rows : List (List Value)
  deriving Repr

namespace Relation

/-- The contents of a table. -/
def ofTable (t : Table) : Relation where
  fields := t.columns.map fun c => ⟨c.name, c.type, some c.affinity⟩
  rows := t.records.map Record.values

/-- One row without columns: what is selected from if no table is named. -/
def unit : Relation := ⟨[], [[]]⟩

/-- The column that a term gives under a name: the type is that of the column it comes from. -/
def output (source : List Field) (name : String) (t : Term) : Field :=
  match t with
  | .column place _ => ⟨name, (source[place]?).bind Field.type, t.affinity?⟩
  | _ => ⟨name, none, none⟩

/-- The name of an item without an alias: that of its column, or its text. In a named selection the
name of a column stands as it is written. -/
def itemName (source : List Field) (isNamed : Bool) (t : Term) (e : Expr) (text : String) : String :=
  match t, bare e with
  | .column place _, .name n => if isNamed then n.text else ((source[place]?).map Field.name).getD text
  | _, .name n => if isNamed then n.text else text
  | _, _ => text

/-- The columns of an item, with their terms. All columns are those of a table. -/
def itemOutputs? (source : List Field) (fromTable isNamed : Bool) (item : Item) :
    Option (List (Field × Term)) :=
  match item with
  | .all =>
    if fromTable then
      some (source.zipIdx.map fun f => (f.1, .column f.2 f.1.affinity))
    else none
  | .expr e label text =>
    (Term.resolve? { fields := source, mayCount := true } e).map fun t =>
      let name := (label.map (·.text)).getD (itemName source isNamed t e text)
      [(output source name t, t)]

/-- The aliases of items, with their terms. -/
def aliases (source : List Field) (items : List Item) : List (String × Term) :=
  items.filterMap fun item =>
    match item with
    | .expr e (some label) _ =>
      (Term.resolve? { fields := source, mayCount := true } e).map fun t => (label.text, t)
    | _ => none

/-- The numbers that stand for places of items; all others are values like any other. -/
def places : Int × Int := (-2147483648, 2147483647)

/-- The term that rows are sorted by: the item at a place, the item of an alias, or any other. -/
def orderTerm? (scope : Scope) (outputs : List (Field × Term)) (e : Expr) : Option Term :=
  let place? := match number? e with
    | some (.integer k) => if places.1 < k && k ≤ places.2 then some k else none
    | _ => none
  match place?, bare e with
  | some k, _ => if 0 < k then (outputs[k.toNat - 1]?).map (·.2) else none
  | none, .name n => (scope.alias? n.text) <|> scope.term? n
  | none, e => Term.resolve? scope e

/-- The order of two lists of keys, each with its direction. -/
def orderKeys : List (Value × Value × Bool) → Ordering
  | [] => .eq
  | (a, b, down) :: more =>
    match a.order b with
    | .eq => orderKeys more
    | o => if down then o.swap else o

/-- Whether two rows are equal value by value. -/
def sameRow (a b : List Value) : Bool :=
  a.length == b.length && (a.zip b).all fun p => p.1.order p.2 == .eq

/-- The rows without those equal to an earlier one. -/
def distinctRows (rows : List (List Value × List Value)) : List (List Value × List Value) :=
  (rows.foldl (fun kept r => if kept.any fun k => sameRow k.1 r.1 then kept else r :: kept) []).reverse

/-- How many rows a limit leaves; a negative number leaves all. -/
def limit? (e : Expr) : Option (Option Nat) :=
  match (Term.resolve? {} e).map fun t => Affinity.integer.apply (t.value ⟨[], 0⟩) with
  | some (.integer n) => some (if n < 0 then none else some n.toNat)
  | _ => none

/-- What a selection gives; `table?` finds what it selects from. -/
def select? (table? : String → Option Relation) (isNamed : Bool) (s : Select) : Option Relation := do
  let source ← match s.table with
    | none => some unit
    | some name => table? name.text
  let outputs := (← s.items.mapM (itemOutputs? source.fields s.table.isSome isNamed)).flatten
  let scope : Scope := { fields := source.fields, aliases := aliases source.fields s.items }
  let condition ← s.condition.mapM (Term.resolve? scope)
  let counting := outputs.any (·.2.counts)
  let order ← s.order.mapM fun o => do
    let t ← orderTerm? { scope with mayCount := counting } outputs o.expr
    return (t, o.descending == some true)
  let limit ← s.limit.mapM limit?
  let rows := source.rows.filter fun r =>
    condition.all fun t => (t.value ⟨r, 0⟩).truth == some true
  let views := if counting then [⟨rows.headD [], rows.length⟩] else rows.map fun r => ⟨r, 0⟩
  let results := views.map fun v => (outputs.map (·.2.value v), order.map (·.1.value v))
  let kept := if s.distinct then distinctRows results else results
  let sorted := kept.mergeSort fun a b =>
    orderKeys ((a.2.zip b.2).zip order |>.map fun k => (k.1.1, k.1.2, k.2.2)) != .gt
  let taken := match limit.join with
    | none => sorted
    | some n => sorted.take n
  return ⟨outputs.map (·.1), taken.map (·.1)⟩

/-- A name without a number behind a colon at its end. -/
def withoutNumber (name : String) : List Char :=
  let stem := name.toList.reverse.dropWhile Char.isDigit
  if stem.head? = some ':' then (stem.drop 1).reverse else name.toList

/-- A name that none of `taken` is equal to: the name itself, or with a number behind a colon. -/
def freshName (taken : List String) (name : String) : String :=
  let isFree (n : String) : Bool := !taken.any (Text.sameName n)
  let numbered (k : Nat) : String :=
    String.ofList (withoutNumber name ++ ':' :: Nat.toDigits 10 (k + 1))
  if isFree name then name
  else (((List.range (taken.length + 1)).map numbered).find? isFree).getD name

/-- The relation with the names of its columns made different from each other. -/
def withFreshNames (r : Relation) : Relation :=
  { r with fields := r.fields.foldl (fun fs f =>
      fs ++ [{ f with name := freshName (fs.map Field.name) f.name }]) [] }

end Relation

namespace Catalog

/-- What a name stands for in a query: a selection named in front of it, or a table. -/
def source? (c : Catalog) (named : List (Sql.Name × Select)) : Nat → String → Option Relation
  | depth, name =>
    match named.find? fun n => Text.sameName n.1.text name, depth with
    | none, _ => (c.table? name).map .ofTable
    | some _, 0 => none
    | some n, depth + 1 => (Relation.select? (source? c named depth) true n.2).map .withFreshNames

/-- What a query gives. -/
def query? (c : Catalog) (q : Query) : Option Relation :=
  let names := q.named.map fun n => Text.fold n.1.text.toList
  if names.eraseDups.length < names.length then none
  else Relation.select? (c.source? q.named q.named.length) false q.body

end Catalog
end DeferredTx.Store
