import SymbolicQuery.Eval
import SymbolicQuery.Output
import SymbolicQuery.Renaming
import SymbolicQuery.Resolution
import SymbolicQuery.Value.Group

/-! Operators on what a query has selected. Grouping describes its rows by a query source of its
own; counting and taking the first row leave a single value. -/
namespace SymbolicQuery

inductive ResultOperator where
  | group (itemName : String) (sourceId : Nat) (key element : Expr)
  | distinct
  | count
  | first (orNull : Bool)
  | take (count : Expr)
  | skip (count : Expr)

namespace ResultOperator

def name : ResultOperator → String
  | group .. => Stage.group.name
  | distinct => Stage.distinct.name
  | count => Stage.count.name
  | first orNull => if orNull then Stage.firstOrNull.name else Stage.first.name
  | take _ => Stage.take.name
  | skip _ => Stage.skip.name

def text : ResultOperator → String
  | group _ _ key element => "GroupBy(" ++ key.text ++ ", " ++ element.text ++ ")"
  | distinct => "Distinct()"
  | count => "Count()"
  | first orNull => if orNull then "FirstOrDefault()" else "First()"
  | take n => "Take(" ++ n.text ++ ")"
  | skip n => "Skip(" ++ n.text ++ ")"

def groupSource (itemName : String) (sourceId : Nat) (key element : Expr) : Source :=
  ⟨sourceId, itemName, .grouping key.ty element.ty⟩

def source? : ResultOperator → Option Source
  | group itemName sourceId key element => some (groupSource itemName sourceId key element)
  | _ => none

def rowsOf (op : ResultOperator) : Shape → Except QueryError RowsShape
  | .rows r => .ok r
  | .scalar ty => .error (.mismatch (.operatorInput op.name) "sequence" ty.text)

def shape (op : ResultOperator) (input : Shape) : Build Shape := do
  let rows ← op.rowsOf input
  match op with
  | group itemName sourceId key element =>
    return .rows (.ofItem (← Build.reference (groupSource itemName sourceId key element)))
  | distinct | take _ | skip _ => return .rows rows
  | count => return .scalar .int
  | first _ => return .scalar rows.itemType

def countOf (name : String) (count : Expr) : Except QueryError Nat := do
  let v ← count.evalClosed
  match v.asInteger? with
  | some n => return n.toInt.toNat
  | none => throw (.mismatch (.count name) Ty.int.text v.kindName)

def groupRows (input : Rows) (key element : Expr) : Build (List Group) := do
  let shape := input.shape
  Build.ensure (shape.itemType == shape.item.ty)
    (.mismatch (.groupedItem Stage.group.name shape.item.text) shape.itemType.text shape.item.ty.text)
  let key ← (← shape.item.unresolve key).close
  let element ← (← shape.item.unresolve element).close
  let pairs ← input.items.mapM fun v => do
    let k ← key.call [v]
    let e ← element.call [v]
    return (k, e)
  return Value.group pairs

def run (op : ResultOperator) (input : Output) : Build Output := do
  match op with
  | group itemName sourceId key element =>
    let groups ← groupRows (← input.rows?) key element
    let item ← Build.reference (groupSource itemName sourceId key element)
    return .rows (← Rows.make (.ofItem item) (groups.map Group.toValue))
  | distinct =>
    let rows ← input.rows?
    return .rows (rows.keep (Value.distinct rows.items) (Value.distinctSublist rows.items))
  | count =>
    let rows ← input.rows?
    return .scalar (← Scalar.make .int (.integer (Int64.ofNat rows.items.length)))
  | first orNull =>
    let rows ← input.rows?
    match rows.items.head? with
    | some v => return .scalar (← Scalar.make rows.shape.itemType v)
    | none =>
      Build.ensure orNull .emptySequence
      return .scalar (← Scalar.make rows.shape.itemType .null)
  | take n =>
    let size ← countOf op.name n
    let rows ← input.rows?
    return .rows (rows.keep (rows.items.take size) (List.take_sublist ..))
  | skip n =>
    let size ← countOf op.name n
    let rows ← input.rows?
    return .rows (rows.keep (rows.items.drop size) (List.drop_sublist ..))

section Pass
variable {m : Type → Type} [Monad m]

def mapExprs (f : Expr → m Expr) : ResultOperator → m ResultOperator
  | group itemName sourceId key element => return group itemName sourceId (← f key) (← f element)
  | take n => return take (← f n)
  | skip n => return skip (← f n)
  | op => pure op

end Pass

def renamed (op : ResultOperator) : Renamed ResultOperator := do
  match op with
  | group itemName sourceId key element =>
    let id ← freshSource
    let key' ← Renamed.rename key
    let element' ← Renamed.rename element
    Renamed.add (groupSource itemName sourceId key element) (groupSource itemName id key' element')
    return group itemName id key' element'
  | op => op.mapExprs Renamed.rename

end ResultOperator

namespace Build

def group (itemName : String) (key element : Expr) : Fresh ResultOperator :=
  return .group itemName (← freshSource) key element

def checkCount (name : String) (count : Expr) : Build Unit :=
  ensure (Ty.int.assignable count.ty) (.mismatch (.count name) Ty.int.text count.ty.text)

def take (count : Expr) : Build ResultOperator := do
  checkCount Stage.take.name count
  return .take count

def skip (count : Expr) : Build ResultOperator := do
  checkCount Stage.skip.name count
  return .skip count

end Build

end SymbolicQuery
