import SymbolicQuery.ResultOperator

/-! Queries: a named source over the items of an origin, clauses that drop and order items, a
selector, and operators on what was selected. All expressions but the origin are over the source,
or over the source of a grouping before them. -/
namespace SymbolicQuery

structure SortKey where
  key : Expr
  descending : Bool

inductive Clause where
  | filter (predicate : Expr)
  | sort (keys : List SortKey)

structure Query where
  source : Source
  origin : Expr
  clauses : List Clause
  selector : Expr
  operators : List ResultOperator

namespace SortKey

def text (k : SortKey) : String := k.key.text ++ if k.descending then " desc" else " asc"

end SortKey

namespace Clause

def text : Clause → String
  | filter predicate => "where " ++ predicate.text
  | sort keys => "orderby " ++ ", ".intercalate (keys.map SortKey.text)

section Pass
variable {m : Type → Type} [Monad m]

def mapExprs (f : Expr → m Expr) : Clause → m Clause
  | filter predicate => return filter (← f predicate)
  | sort keys => return sort (← keys.mapM fun k => return { k with key := ← f k.key })

end Pass

end Clause

namespace Query

def text (q : Query) : String :=
  "from " ++ q.source.itemType.text ++ " " ++ q.source.itemName ++ " in " ++ q.origin.text ++
    String.join (q.clauses.map fun c => " " ++ c.text) ++ " select " ++ q.selector.text ++
    String.join (q.operators.map fun op => " => " ++ op.text)

def itemTypeOf (origin : Ty) : Except QueryError Ty :=
  match origin with
  | .any => .ok .any
  | .sequence item => .ok item
  | ty => .error (.mismatch .origin "sequence" ty.text)

def start (itemName : String) (origin : Expr) : Build Query := do
  let source ← Source.fresh itemName (← itemTypeOf origin.ty)
  return ⟨source, origin, [], ← Build.reference source, []⟩

def shape (q : Query) : Build Shape :=
  q.operators.foldlM (fun input op => op.shape input) (.rows (.ofItem q.selector))

section Pass
variable {m : Type → Type} [Monad m]

def mapExprs (f : Expr → m Expr) (q : Query) : m Query := do
  let origin ← f q.origin
  let clauses ← q.clauses.mapM (Clause.mapExprs f)
  let selector ← f q.selector
  let operators ← q.operators.mapM (ResultOperator.mapExprs f)
  return { q with origin, clauses, selector, operators }

end Pass

/-- A copy with sources of its own. References to the sources of the query are renamed to those of
the copy, also in what is renamed afterwards. -/
def renamed (q : Query) : Renamed Query := do
  let origin ← Renamed.rename q.origin
  let source ← Source.fresh q.source.itemName q.source.itemType
  Renamed.add q.source source
  let clauses ← q.clauses.mapM (Clause.mapExprs Renamed.rename)
  let selector ← Renamed.rename q.selector
  let operators ← q.operators.mapM ResultOperator.renamed
  return ⟨source, origin, clauses, selector, operators⟩

def copy (q : Query) : Fresh Query := return (← q.renamed.run .empty).1

end Query

namespace Build

def filter (predicate : Expr) : Build Clause := do
  ensure (Ty.bool.assignable predicate.ty) (.mismatch .predicate Ty.bool.text predicate.ty.text)
  return .filter predicate

end Build

end SymbolicQuery
