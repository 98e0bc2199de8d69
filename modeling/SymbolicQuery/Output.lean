import SymbolicQuery.Shape
import SymbolicQuery.Ty.Accepts

/-! What a query has yielded: the rows or the value of a shape. Every row is a value of the row
type, so rows can be dropped without another check. -/
namespace SymbolicQuery

structure Rows where
  shape : RowsShape
  items : List Value
  accepted : ∀ v ∈ items, shape.itemType.accepts v = true

structure Scalar where
  ty : Ty
  value : Value
  accepted : ty.accepts value = true

inductive Output where
  | rows (rows : Rows)
  | scalar (scalar : Scalar)

namespace Rows

def make (shape : RowsShape) (items : List Value) : Except QueryError Rows :=
  match h : items.find? fun v => !shape.itemType.accepts v with
  | some v => .error (.mismatch .row shape.itemType.text v.kindName)
  | none => .ok ⟨shape, items, by simpa using h⟩

def keep (rows : Rows) (kept : List Value) (among : kept.Sublist rows.items) : Rows :=
  ⟨rows.shape, kept, fun v inside => rows.accepted v (among.subset inside)⟩

end Rows

namespace Scalar

def make (ty : Ty) (value : Value) : Except QueryError Scalar :=
  if accepted : ty.accepts value = true then .ok ⟨ty, value, accepted⟩
  else .error (.mismatch .scalar ty.text value.kindName)

end Scalar

namespace Output

def shape : Output → Shape
  | rows r => .rows r.shape
  | scalar s => .scalar s.ty

def rows? : Output → Except QueryError Rows
  | rows r => .ok r
  | scalar s => .error (.mismatch .rowsExpected "sequence" s.ty.text)

def value : Output → Value
  | rows r => .array r.items
  | scalar s => s.value

end Output

end SymbolicQuery
