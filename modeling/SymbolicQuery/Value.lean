import SymbolicQuery.Fields
import SymbolicQuery.Number.Decimal
import SymbolicQuery.Number.Binary64.Shortest
import SymbolicQuery.Text.Quoted

/-! Values that flow through a query. Whole, floating-point and decimal numbers are kept apart;
they compare with each other by number. Objects keep the order of their members. -/
namespace SymbolicQuery

inductive Value where
  | null
  | boolean (b : Bool)
  | integer (n : Int64)
  | float (x : Binary64)
  | decimal (d : Decimal)
  | string (s : String)
  | array (items : List Value)
  | object (members : List (String × Value))
  | grouping (key : Value) (elements : List Value)

def int64? (n : Int) : Option Int64 :=
  if -(2 ^ 63) ≤ n ∧ n < 2 ^ 63 then some (Int64.ofInt n) else none

theorem int64Eq {z : Int} {n : Int64} : int64? z = some n ↔ z = n.toInt := by
  have low := Int64.le_toInt n
  have high := Int64.toInt_lt n
  unfold int64?
  split
  · rename_i room
    rw [Option.some.injEq]
    constructor
    · rintro rfl
      exact (Int64.toInt_ofInt_of_le room.1 room.2).symm
    · rintro rfl
      exact Int64.ofInt_toInt n
  · rename_i outside
    constructor
    · intro none
      cases none
    · intro same
      omega

namespace Value

instance : Inhabited Value := ⟨.null⟩

mutual

/-- Equality of structure, down to the sign of zeros and the places of decimals. -/
def same : Value → Value → Bool
  | .null, .null => true
  | .boolean a, .boolean b => a == b
  | .integer a, .integer b => a == b
  | .float a, .float b => a == b
  | .decimal a, .decimal b => a == b
  | .string a, .string b => a == b
  | .array a, .array b => sameAll a b
  | .object a, .object b => sameMembers a b
  | .grouping k a, .grouping l b => k.same l && sameAll a b
  | _, _ => false

def sameAll : List Value → List Value → Bool
  | [], [] => true
  | a :: as, b :: bs => a.same b && sameAll as bs
  | _, _ => false

def sameMembers : List (String × Value) → List (String × Value) → Bool
  | [], [] => true
  | (m, a) :: as, (n, b) :: bs => m == n && a.same b && sameMembers as bs
  | _, _ => false

end

mutual

theorem sameIff : (a b : Value) → (a.same b = true ↔ a = b)
  | .array as, b => by cases b <;> simp [same]; exact sameAllIff as _
  | .object ms, b => by cases b <;> simp [same]; exact sameMembersIff ms _
  | .grouping k es, b => by cases b <;> simp [same, sameIff k, sameAllIff es]
  | .null, b | .boolean _, b | .integer _, b | .float _, b | .decimal _, b | .string _, b => by
    cases b <;> simp [same]

theorem sameAllIff : (as bs : List Value) → (sameAll as bs = true ↔ as = bs)
  | [], bs => by cases bs <;> simp [sameAll]
  | a :: as, bs => by cases bs <;> simp [sameAll, sameIff a, sameAllIff as]

theorem sameMembersIff : (as bs : List (String × Value)) → (sameMembers as bs = true ↔ as = bs)
  | [], bs => by cases bs <;> simp [sameMembers]
  | (m, a) :: as, bs => by
    cases bs with
    | nil => simp [sameMembers]
    | cons b bs => obtain ⟨n, b⟩ := b; simp [sameMembers, sameIff a, sameMembersIff as]

end

instance : DecidableEq Value := fun a b => decidable_of_iff _ (sameIff a b)

def kindName : Value → String
  | .null => "null"
  | .boolean _ => "boolean"
  | .integer _ => "integer"
  | .float _ => "float"
  | .decimal _ => "decimal"
  | .string _ => "string"
  | .array _ => "array"
  | .object _ => "object"
  | .grouping _ _ => "grouping"

def isTrue : Value → Bool
  | .null => false
  | .boolean b => b
  | .integer n => n != 0
  | .float x => !x.isZero
  | .decimal d => !d.isZero
  | .string s => s != ""
  | .array items => !items.isEmpty
  | .object members => !members.isEmpty
  | .grouping _ elements => !elements.isEmpty

def asFloat? : Value → Option Binary64
  | .integer n => some (Binary64.ofInt n.toInt)
  | .float x => some x
  | .decimal d => some d.toBinary
  | _ => none

def asInteger? : Value → Option Int64
  | .integer n => some n
  | _ => none

def asDecimal? : Value → Option Decimal
  | .integer n => some (Decimal.ofInt64 n)
  | .float x => Decimal.ofBinary? x
  | .decimal d => some d
  | _ => none

def get? (name : String) : Value → Option Value
  | .object members => Fields.get? name members
  | .grouping key _ => if name = "key" then some key else none
  | _ => none

/-- The order of values. Null comes first, numbers compare whatever their kind, and values of
unrelated kinds do not compare. Texts compare by code point. -/
def compare : Value → Value → Option Ordering
  | .null, .null => some .eq
  | .null, _ => some .lt
  | _, .null => some .gt
  | .integer a, .integer b => some (Ord.compare a.toInt b.toInt)
  | .decimal a, .decimal b => some (a.compare b)
  | .decimal a, .integer b => some (a.compare (Decimal.ofInt64 b))
  | .integer a, .decimal b => some ((Decimal.ofInt64 a).compare b)
  | .string a, .string b => some (Ord.compare a b)
  | .boolean a, .boolean b => some (Ord.compare a b)
  | a, b =>
    match a.asFloat?, b.asFloat? with
    | some x, some y => x.compare y
    | _, _ => none

mutual

def text : Value → String
  | .null => "null"
  | .boolean b => if b then "true" else "false"
  | .integer n => toString n.toInt
  | .float x => x.write Binary64.display
  | .decimal d => d.write ++ "m"
  | .string s => Text.quote s
  | .array items => "[" ++ ", ".intercalate (texts items) ++ "]"
  | .object members => "\x7b" ++ ", ".intercalate (memberTexts members) ++ "\x7d"
  | .grouping key elements => key.text ++ " => [" ++ ", ".intercalate (texts elements) ++ "]"

def texts : List Value → List String
  | [] => []
  | v :: vs => v.text :: texts vs

def memberTexts : List (String × Value) → List String
  | [] => []
  | (name, v) :: rest => (name ++ " = " ++ v.text) :: memberTexts rest

end

end Value

end SymbolicQuery
