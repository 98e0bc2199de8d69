import SymbolicQuery.Error
import SymbolicQuery.Operator
import SymbolicQuery.Ty.Accepts
import SymbolicQuery.Value.Key

/-! Operators and conversions on values. Whole numbers are exact or overflow. Floating-point
operands are brought to decimals first, so that `0.1 + 0.2` is `0.3`; where that is not possible
binary arithmetic stands in. An absent operand makes an absent result. -/
namespace SymbolicQuery.Value

def integerResult? (op : BinaryOp) (a b : Int) : Option Int64 :=
  match op with
  | .add => int64? (a + b)
  | .subtract => int64? (a - b)
  | .multiply => int64? (a * b)
  | .divide => int64? (a.tdiv b)
  | _ => (int64? (a.tdiv b)).bind fun _ => int64? (a.tmod b)

def decimalResult? (op : BinaryOp) (a b : Decimal) : Option Decimal :=
  match op with
  | .add => a.add? b
  | .subtract => a.sub? b
  | .multiply => a.mul? b
  | .divide => a.div? b
  | _ => a.rem? b

def floatResult (op : BinaryOp) (a b : Binary64) : Binary64 :=
  match op with
  | .add => a.add b
  | .subtract => a.sub b
  | .multiply => a.mul b
  | .divide => a.div b
  | _ => a.rem b

def isQuotient (op : BinaryOp) : Bool := op == .divide || op == .modulo

def mixedResult (op : BinaryOp) (left right : Value) (a b : Binary64) : Binary64 :=
  match left.asDecimal?, right.asDecimal? with
  | some x, some y => ((decimalResult? op x y).map Decimal.toBinary).getD (floatResult op a b)
  | _, _ => floatResult op a b

def arithmetic (op : BinaryOp) (left right : Value) : Except QueryError Value :=
  let overflow := QueryError.overflow (left.text ++ " " ++ op.symbol ++ " " ++ right.text)
  let unfit := QueryError.failure (.applies op.symbol left.kindName right.kindName)
  let decimals : Except QueryError Value :=
    match left.asDecimal?, right.asDecimal? with
    | some a, some b =>
      if isQuotient op && b.isZero then .error .divisionByZero
      else match decimalResult? op a b with
        | some d => .ok (.decimal d)
        | none => .error overflow
    | _, _ => .error unfit
  let floats : Except QueryError Value :=
    match left.asFloat?, right.asFloat? with
    | some a, some b =>
      if isQuotient op && b.isZero then .error .divisionByZero
      else .ok (.float (mixedResult op left right a b))
    | _, _ => .error unfit
  match left, right with
  | .null, _ | _, .null => .ok .null
  | .string a, .string b => if op = .add then .ok (.string (a ++ b)) else .error unfit
  | .integer a, .integer b =>
    if isQuotient op && b == 0 then .error .divisionByZero
    else match integerResult? op a.toInt b.toInt with
      | some n => .ok (.integer n)
      | none => .error overflow
  | .decimal _, _ | _, .decimal _ => decimals
  | .float _, .float _ | .float _, .integer _ | .integer _, .float _ => floats
  | _, _ => .error unfit

def ordered (op : BinaryOp) (left right : Value) : Except QueryError Value :=
  match left.compare right with
  | none => .error (.failure (.compares left.kindName right.kindName))
  | some o => .ok <| .boolean <|
      match op with
      | .less => o.isLT
      | .greater => o.isGT
      | .lessEqual => o.isLE
      | _ => o.isGE

def apply (op : BinaryOp) (left right : Value) : Except QueryError Value :=
  match op with
  | .equal => .ok (.boolean (left.equals right))
  | .notEqual => .ok (.boolean (!left.equals right))
  | .less | .greater | .lessEqual | .greaterEqual => ordered op left right
  | .and => .ok (.boolean (left.isTrue && right.isTrue))
  | .or => .ok (.boolean (left.isTrue || right.isTrue))
  | .add | .subtract | .multiply | .divide | .modulo => arithmetic op left right

def negate : Value → Except QueryError Value
  | .null => .ok .null
  | .integer n =>
    match int64? (-n.toInt) with
    | some m => .ok (.integer m)
    | none => .error (.overflow ("-(" ++ toString n.toInt ++ ")"))
  | .float x => .ok (.float x.neg)
  | .decimal d => .ok (.decimal d.neg)
  | v => .error (.failure (.negates v.kindName))

def applyUnary (op : UnaryOp) (v : Value) : Except QueryError Value :=
  match op with
  | .not => .ok (.boolean !v.isTrue)
  | .negate => v.negate

def saturate (x : Binary64) : Int64 :=
  if x.isNaN then 0
  else match x.truncate? with
    | some n => Int64.ofInt (max (-(2 ^ 63)) (min n (2 ^ 63 - 1)))
    | none => if x.negative then Int64.minValue else Int64.maxValue

/-- A value as a value of another type. What does not fit a whole number is an error if that is
checked, or if it comes from a decimal. -/
def convert (checked : Bool) (target : Ty) (v : Value) : Except QueryError Value :=
  let overflow := QueryError.overflow (v.text ++ " does not fit in " ++ target.text)
  let orOverflow (result : Option Value) : Except QueryError Value :=
    match result with
    | some w => .ok w
    | none => .error overflow
  match target, v with
  | _, .null => .ok v
  | .any, _ => .ok v
  | .int, .float x =>
    match x.truncate?.bind int64? with
    | some n => .ok (.integer n)
    | none => if checked then .error overflow else .ok (.integer (saturate x))
  | .int, .decimal d => orOverflow ((int64? d.truncate).map .integer)
  | .float, .integer n => .ok (.float (Binary64.ofInt n.toInt))
  | .float, .decimal d => .ok (.float d.toBinary)
  | .decimal, .integer n => .ok (.decimal (Decimal.ofInt64 n))
  | .decimal, .float x => orOverflow ((Decimal.ofBinary? x).map .decimal)
  | target, v =>
    if target.accepts v then .ok v else .error (.mismatch .conversion target.text v.kindName)

def read (name : String) (v : Value) : Except QueryError Value :=
  match v with
  | .null => .ok .null
  | .object members => .ok ((Fields.get? name members).getD .null)
  | _ =>
    match v.get? name with
    | some w => .ok w
    | none => .error (.failure (.reads name v.kindName))

end SymbolicQuery.Value
