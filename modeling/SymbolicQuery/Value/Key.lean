import SymbolicQuery.Value

/-! The equality that groups and removes duplicates. Numbers are reduced to one canonical form
whatever their kind, so that `1`, `1.0` and `1.00` are one key; a floating-point number that is
not whole stands for its bits, and objects do not depend on the order of their members. -/
namespace SymbolicQuery

inductive NumberKey where
  | whole (n : Int64)
  | bits (x : Binary64)
  | decimal (d : Decimal)
  deriving DecidableEq

namespace NumberKey

def ofFloat (x : Binary64) : NumberKey :=
  match x.whole?.bind int64? with
  | some n => .whole n
  | none => .bits x

def ofDecimal (d : Decimal) : NumberKey :=
  match d.whole?.bind int64? with
  | some n => .whole n
  | none =>
    match Decimal.ofBinary? d.toBinary with
    | some back => if back.compare d = .eq then ofFloat d.toBinary else .decimal d.normalize
    | none => .decimal d.normalize

end NumberKey

namespace Value

def numberKey? : Value → Option NumberKey
  | .integer n => some (.whole n)
  | .float x => some (.ofFloat x)
  | .decimal d => some (.ofDecimal d)
  | _ => none

mutual

def sameKey : Value → Value → Bool
  | .null, .null => true
  | .boolean a, .boolean b => a == b
  | .string a, .string b => a == b
  | .array a, .array b => sameKeys a b
  | .object a, .object b => a.length == b.length && membersWithin a b
  | .grouping k a, .grouping l b => k.sameKey l && sameKeys a b
  | a, b =>
    match a.numberKey?, b.numberKey? with
    | some x, some y => x == y
    | _, _ => false

def sameKeys : List Value → List Value → Bool
  | [], [] => true
  | a :: as, b :: bs => a.sameKey b && sameKeys as bs
  | _, _ => false

def membersWithin : List (String × Value) → List (String × Value) → Bool
  | [], _ => true
  | (name, v) :: rest, other =>
    (match Fields.get? name other with
      | some w => v.sameKey w
      | none => false) && membersWithin rest other

end

def equals (a b : Value) : Bool :=
  match a.asFloat?, b.asFloat? with
  | some _, some _ => a.compare b == some .eq
  | _, _ => a.sameKey b

mutual

def identical : Value → Value → Bool
  | .null, .null => true
  | .boolean a, .boolean b => a == b
  | .integer a, .integer b => a == b
  | .float a, .float b => a.compare b == some .eq
  | .decimal a, .decimal b => a.compare b == .eq
  | .string a, .string b => a == b
  | .array a, .array b => identicalAll a b
  | .object a, .object b => a.length == b.length && identicalWithin a b
  | .grouping k a, .grouping l b => k.identical l && identicalAll a b
  | _, _ => false

def identicalAll : List Value → List Value → Bool
  | [], [] => true
  | a :: as, b :: bs => a.identical b && identicalAll as bs
  | _, _ => false

def identicalWithin : List (String × Value) → List (String × Value) → Bool
  | [], _ => true
  | (name, v) :: rest, other =>
    (match Fields.get? name other with
      | some w => v.identical w
      | none => false) && identicalWithin rest other

end

end Value

end SymbolicQuery
