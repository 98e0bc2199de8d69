import SymbolicQuery.Query
import SymbolicQuery.Sorter.Drift

/-! Running a query over values. Each expression over the source becomes a function of the current
item again, and is called on the items one after another. -/
namespace SymbolicQuery

namespace Query

def itemsOf (origin : Expr) : Except QueryError (List Value) := do
  match ← origin.evalClosed with
  | .array items => return items
  | .null => return []
  | v => throw (.mismatch .origin "sequence" v.kindName)

def select (condition : Closed) : List Value → Except QueryError (List Value)
  | [] => .ok []
  | v :: rest => do
    let holds := (← condition.call [v]).isTrue
    let kept ← select condition rest
    return if holds then v :: kept else kept

structure KeyFunction where
  function : Closed
  descending : Bool

abbrev Keyed := List Value × Value

def keysOf (functions : List KeyFunction) (v : Value) : Except QueryError Keyed :=
  return (← functions.mapM fun f => f.function.call [v], v)

def compareKeys : List KeyFunction → List Value → List Value → Except QueryError Ordering
  | f :: functions, a :: as, b :: bs =>
    match a.compare b with
    | some .eq => compareKeys functions as bs
    | some o => .ok (if f.descending then o.swap else o)
    | none => .error (.failure (.unordered f.function.lambda.text a.text b.text))
  | _, _, _ => .ok .eq

def arrange (functions : List KeyFunction) {n : Nat} (keyed : Fin n → Keyed) : Except QueryError (List Value) := do
  let order (i j : Fin n) := compareKeys functions (keyed i).1 (keyed j).1
  return (← (Sorter.sort (List.finRange n)).run order .brokenOrder none).map fun i => (keyed i).2

def sort (functions : List KeyFunction) (items : List Value) : Except QueryError (List Value) := do
  let keyed ← items.mapM (keysOf functions)
  arrange functions keyed.get

def functionOf (item e : Expr) : Build Closed := do (← item.unresolve e).close

def runClause (item : Expr) (clause : Clause) (items : List Value) : Build (List Value) := do
  match clause with
  | .filter predicate => select (← functionOf item predicate) items
  | .sort keys =>
    let functions ← keys.mapM fun k => return ⟨← functionOf item k.key, k.descending⟩
    sort functions items

def execute (q : Query) : Build Output := do
  let items ← itemsOf q.origin
  let item ← Build.reference q.source
  let items ← q.clauses.foldlM (fun items clause => runClause item clause items) items
  let selector ← functionOf item q.selector
  let selected ← items.mapM fun v => selector.call [v]
  let rows ← Rows.make (.ofItem q.selector) selected
  q.operators.foldlM (fun input op => op.run input) (.rows rows)

end Query

end SymbolicQuery
