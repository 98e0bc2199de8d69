import SymbolicQuery.Ty
import SymbolicQuery.Value

/-! Which values a type holds. Null is held by every type, and whole numbers also by the types of
floating-point and decimal numbers. An object may lack members and may have others. -/
namespace SymbolicQuery.Ty

mutual

def accepts : Ty → Value → Bool
  | .any, _ => true
  | _, .null => true
  | .bool, .boolean _ => true
  | .int, .integer _ => true
  | .float, .float _ | .float, .integer _ => true
  | .decimal, .decimal _ | .decimal, .integer _ => true
  | .string, .string _ => true
  | .object o, .object members => acceptsMembers o.members members
  | .sequence item, .array items => items.all item.accepts
  | .grouping key element, .grouping k elements => key.accepts k && elements.all element.accepts
  | _, _ => false

def acceptsMembers : List Member → List (String × Value) → Bool
  | [], _ => true
  | m :: rest, members =>
    (match Fields.get? m.name members with
      | some v => m.ty.accepts v
      | none => true) && acceptsMembers rest members

end

end SymbolicQuery.Ty
