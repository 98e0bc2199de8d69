import SymbolicQuery.Ty.Accepts

/-! The type of a value. Items of an array are brought together: whole numbers widen to
floating-point ones, objects merge their members, and what does not fit becomes `any`. -/
namespace SymbolicQuery.Ty

mutual

def unify (a b : Ty) : Ty :=
  if a = b then a
  else match a, b with
    | .int, .float | .float, .int => .float
    | .sequence x, .sequence y => .sequence (unify x y)
    | .object x, .object y =>
      .object (.ofShape (mergeMembers (Fields.ofList (x.members.map fun m => (m.name, m.ty))) y.members))
    | _, _ => .any

def mergeMembers (fields : Fields Ty) : List Member → Fields Ty
  | [] => fields
  | m :: rest =>
    let ty := match fields.get? m.name with
      | some old => unify old m.ty
      | none => m.ty
    mergeMembers (fields.put m.name ty) rest

end

def unifyAll : List Ty → Ty
  | [] => .any
  | t :: ts => ts.foldl unify t

mutual

def infer : Value → Ty
  | .null => .any
  | .boolean _ => .bool
  | .integer _ => .int
  | .float _ => .float
  | .decimal _ => .decimal
  | .string _ => .string
  | .array items => .sequence (unifyAll (inferItems items))
  | .object members => .object (.ofShape (inferMembers members))
  | .grouping key elements => .grouping (infer key) (unifyAll (inferItems elements))

/-- The types of the items that are not null: null says nothing about its type. -/
def inferItems : List Value → List Ty
  | [] => []
  | v :: rest => if v = .null then inferItems rest else infer v :: inferItems rest

def inferMembers : List (String × Value) → List (String × Ty)
  | [] => []
  | (name, v) :: rest => (name, infer v) :: inferMembers rest

end

end SymbolicQuery.Ty
