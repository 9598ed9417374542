import DeferredTx.Sql.Expr.Reader

/-!
# Selections

* `Select`: the items that are selected, and from what, in which order and how many.
* `Query`: a selection behind named ones that it may select from.
* `Select.render`, `Query.render`: their texts.
* `Select.read`, `Query.read`: those at the front of a list of tokens.
-/

namespace DeferredTx.Sql

/-- An item of a selection. -/
inductive Item where
  /-- All columns. -/
  | all
  /-- An expression, its alias if it has one, and its text as it is written. -/
  | expr (e : Expr) (label : Option Name) (source : String)
  deriving DecidableEq, Repr

/-- What rows are sorted by. -/
structure OrderTerm where
  expr : Expr
  /-- The direction if it is written. -/
  descending : Option Bool := none
  deriving DecidableEq, Repr

/-- A selection. -/
structure Select where
  distinct : Bool := false
  items : List Item
  table : Option Name := none
  condition : Option Expr := none
  order : List OrderTerm := []
  limit : Option Expr := none
  deriving DecidableEq, Repr

/-- A selection behind named ones that it may select from. -/
structure Query where
  named : List (Name × Select) := []
  body : Select
  deriving DecidableEq, Repr

/-- Texts with commas between them. -/
def commas (texts : List String) : String :=
  String.intercalate ", " texts

/-- A keyword with what follows it; nothing if nothing does. -/
def clauseText (keyword : String) (text : Option String) : String :=
  match text with
  | none => ""
  | some text => " " ++ keyword ++ " " ++ text

/-- The text of an item. An alias always stands behind `AS`. -/
def Item.render : Item → String
  | all => "*"
  | expr e none _ => e.render
  | expr e (some label) _ => e.render ++ " AS " ++ label.render

/-- The text of a term. -/
def OrderTerm.render (t : OrderTerm) : String :=
  match t.descending with
  | none => t.expr.render
  | some down => t.expr.render ++ if down then " DESC" else " ASC"

/-- The text of a selection. -/
def Select.render (s : Select) : String :=
  "SELECT" ++ (if s.distinct then " DISTINCT" else "")
    ++ (if s.items.isEmpty then "" else " " ++ commas (s.items.map Item.render))
    ++ clauseText "FROM" (s.table.map Name.render)
    ++ clauseText "WHERE" (s.condition.map Expr.render)
    ++ (if s.order.isEmpty then "" else " ORDER BY " ++ commas (s.order.map OrderTerm.render))
    ++ clauseText "LIMIT" (s.limit.map Expr.render)

/-- The text of a query. -/
def Query.render (q : Query) : String :=
  let named := q.named.map fun n => n.1.render ++ " AS (" ++ n.2.render ++ ")"
  (if named.isEmpty then "" else "WITH " ++ commas named ++ " ") ++ q.body.render

/-- Takes an alias: any name behind `AS`, or a name that may stand there without it. -/
def Item.readAlias (d : Dialect) : Reader (Option Name) := do
  if ← Reader.present (Reader.keyword "AS") then
    some <$> Reader.name d
  else
    optional <| Reader.token fun t =>
      match t.lexeme with
      | .word text => if isOneOf text d.notAlias then none else some ⟨none, text⟩
      | .name quote text | .string quote text => some ⟨some quote, text⟩
      | _ => none

/-- The text from the token in front of a list to the one in front of its rest, without the gap in
front of the first one and without blanks at the end. -/
def takenText (before after : List Token) : String :=
  let taken := Token.textOf (before.take (before.length - after.length))
  let upToNext := taken ++ (after.head?.map Token.gap).getD []
  let text := upToNext.drop ((before.head?.map Token.gap).getD []).length
  String.ofList (text.reverse.dropWhile Text.isAsciiBlank).reverse

/-- Takes an item. The word `FROM` is none. -/
def Item.read (d : Dialect) : Reader Item := do
  let before ← get
  if ← Reader.present (Reader.symbol "*") then return .all
  let e ← Expr.read d
  if let .name ⟨none, text⟩ := e then
    if Text.sameName text "FROM" then failure
  let after ← get
  return .expr e (← readAlias d) (takenText before after)

/-- Takes a term of an order. -/
def OrderTerm.read (d : Dialect) : Reader OrderTerm := do
  let expr ← Expr.read d
  let word ← optional (Reader.oneOf ["ASC", "DESC"])
  return ⟨expr, word.map (· == "DESC")⟩

/-- Takes the items of a selection. Where the dialect allows it, none may stand in front of
`FROM`. -/
def Select.readItems (d : Dialect) : Reader (List Item) := do
  let missing := d.emptySelection && (← get).head?.any fun t => t.isKeyword "FROM"
  if missing then return [] else Reader.commaSeparated (Item.read d)

/-- Takes a selection. -/
def Select.read (d : Dialect) : Reader Select := do
  Reader.keyword "SELECT"
  let distinct ← Reader.present (Reader.keyword "DISTINCT")
  let items ← readItems d
  let table ← Reader.clause ["FROM"] (Reader.name d)
  let condition ← Reader.clause ["WHERE"] (Expr.read d)
  let order ← Reader.clause ["ORDER", "BY"] (Reader.commaSeparated (OrderTerm.read d))
  let limit ← Reader.clause ["LIMIT"] (Expr.read d)
  return ⟨distinct, items, table, condition, order.getD [], limit⟩

/-- Takes a query, which is one level inside a statement; its named selections are two. -/
def Query.read (d : Dialect) : Reader Query := do
  let named ← Reader.clause ["WITH"] <| Reader.commaSeparated do
    let name ← Reader.name d
    Reader.keyword "AS"
    return (name, ← Reader.parenthesized (Select.read d.inner.inner))
  return ⟨named.getD [], ← Select.read d.inner⟩

end DeferredTx.Sql
