import SymbolicQuery.Error
import SymbolicQuery.Expr.Text

/-! What a query yields, said before it runs: rows that one expression describes, or one value. -/
namespace SymbolicQuery

structure RowsShape where
  itemType : Ty
  item : Expr
  holds : itemType.assignable item.ty = true

inductive Shape where
  | rows (rows : RowsShape)
  | scalar (ty : Ty)

namespace RowsShape

def ofItem (item : Expr) : RowsShape := ⟨item.ty, item, Ty.assignableSelf item.ty⟩

def make (ty : Ty) (item : Expr) : Except QueryError RowsShape :=
  match ty with
  | .sequence itemType =>
    if holds : itemType.assignable item.ty = true then .ok ⟨itemType, item, holds⟩
    else .error (.mismatch (.itemExpression item.text) itemType.text item.ty.text)
  | _ => .error (.mismatch .rows "sequence" ty.text)

end RowsShape

namespace Shape

def ty : Shape → Ty
  | rows r => .sequence r.itemType
  | scalar t => t

def text : Shape → String
  | rows r => (Ty.sequence r.itemType).text ++ " of " ++ r.item.text
  | scalar t => t.text

end Shape

end SymbolicQuery
