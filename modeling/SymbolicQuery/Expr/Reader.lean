import SymbolicQuery.Reading

/-! Expressions as text. From weak to strong: `or`, `and`, one comparison, sums, products, signs,
then member reads, calls and conversions behind an operand. Nested expressions start behind a
token of their own, so the number of tokens bounds how deep they go. -/
namespace SymbolicQuery

namespace Reading

def orOperator? : Token → Option BinaryOp
  | .orWord => some .or
  | _ => none

def andOperator? : Token → Option BinaryOp
  | .andWord => some .and
  | _ => none

def comparison? : Token → Option BinaryOp
  | .equal => some .equal
  | .notEqual => some .notEqual
  | .less => some .less
  | .greater => some .greater
  | .lessEqual => some .lessEqual
  | .greaterEqual => some .greaterEqual
  | _ => none

def sumOperator? : Token → Option BinaryOp
  | .plus => some .add
  | .minus => some .subtract
  | _ => none

def productOperator? : Token → Option BinaryOp
  | .star => some .multiply
  | .slash => some .divide
  | .percent => some .modulo
  | _ => none

def sign? : Token → Option UnaryOp
  | .minus => some .negate
  | .bang => some .not
  | _ => none

def operation (operator? : Token → Option BinaryOp) (operand : Reading Expr) (left : Expr) :
    Reading (Option Expr) := do
  let (token, position) ← next
  match operator? token with
  | none => return none
  | some op =>
    advance
    let right ← operand
    return some (← build position (Build.binary op left right))

def leftGrouped (operator? : Token → Option BinaryOp) (operand : Reading Expr) : Reading Expr := do
  iterate (operation operator? operand) (← operand)

def single (operator? : Token → Option BinaryOp) (operand : Reading Expr) : Reading Expr := do
  let left ← operand
  return (← operation operator? operand left).getD left

def oneSign (signs : List (UnaryOp × Nat)) : Reading (Option (List (UnaryOp × Nat))) := do
  let (token, position) ← next
  match sign? token with
  | none => return none
  | some op =>
    advance
    return some ((op, position) :: signs)

def signs : Reading (List (UnaryOp × Nat)) := iterate oneSign []

def signed (operand : Reading Expr) : Reading Expr := do
  let signs ← signs
  signs.foldlM (fun e (op, position) => build position (Build.unary op e)) (← operand)

def type : Reading Ty := do
  let (name, position) ← identifier
  match name with
  | "any" => return .any
  | "bool" => return .bool
  | "int" => return .int
  | "float" => return .float
  | "decimal" => return .decimal
  | "string" => return .string
  | _ =>
    match (← read).type? name with
    | some type => return .object type
    | none => throw (.unknownType name position)

def methodCall (object : Expr) (name : String) (position : Nat) (args : List Expr) : Reading Expr := do
  match (object.ty.member? name).filter MemberOf.isMethod, TextMethod.ofName? name with
  | some member, _ =>
    build position do
      Build.ensure args.isEmpty (.misuse (.getterArguments name))
      Build.getter object member
  | none, some method => build position (Build.textCall object method args)
  | none, none => throw (.unknownMethod name position)

def memberRead (object : Expr) (name : String) (position : Nat) : Reading Expr :=
  build position do
    match object.ty.member? name with
    | some member => Build.read object member
    | none =>
      throw (.mismatch (.access name) ("a type with member '" ++ name ++ "'") object.ty.text)

def suffix (nested : Reading Expr) (e : Expr) : Reading (Option Expr) := do
  match ← next with
  | (.dot, _) =>
    advance
    let (name, position) ← identifier
    if ← accepts .openParen then
      return some (← methodCall e name position (← itemsUntil .closeParen nested))
    else return some (← memberRead e name position)
  | (.asWord, position) =>
    advance
    let checked ← accepts (.identifier "checked")
    let ty ← type
    return some (← build position (Build.convert checked e ty))
  | _ => return none

def field (nested : Reading Expr) : Reading (String × Nat × Expr) := do
  let (name, position) ← identifier
  expect .assign
  return (name, position, ← nested)

def constructedType? : Reading (Option ObjectType) := do
  match ← next with
  | (.identifier _, _) =>
    let (name, position) ← identifier
    match (← read).type? name with
    | some type => return some type
    | none => throw (.unknownType name position)
  | _ => return none

def binding (type : ObjectType) : String × Nat × Expr → Reading Binding
  | (name, position, value) =>
    match type.member? name with
    | some member => return .assign member value
    | none => throw (.query (.misuse (.notAMember name type.name)) position)

def construction (position : Nat) (nested : Reading Expr) : Reading Expr := do
  let type? ← constructedType?
  expect .openBrace
  let fields ← itemsUntil .closeBrace (field nested)
  match type? with
  | none => build position (Build.anonymous (fields.map fun (name, _, value) => (name, value)))
  | some type =>
    let base ← build position (Build.construct type [] [])
    let bindings ← fields.mapM (binding type)
    build position (Build.populate base bindings)

def literal (node : Fresh Expr) (position : Nat) : Reading Expr := do
  advance
  build position node

def operand (nested : Reading Expr) : Reading Expr := do
  let (token, position) ← take
  match token with
  | .float x => literal (Build.float x) position
  | .integer n => literal (Build.integer n) position
  | .string s => literal (Build.string s) position
  | .boolean b => literal (Build.boolean b) position
  | .null => literal Build.null position
  | .identifier name =>
    match (← read).param? name with
    | some p => literal (Build.parameter p) position
    | none => throw (.unknownName name position)
  | .openParen =>
    advance
    let e ← nested
    expect .closeParen
    return e
  | .newWord =>
    advance
    construction position nested
  | token =>
    putBack token
    unexpected .expression

def suffixed (nested : Reading Expr) : Reading Expr := do iterate (suffix nested) (← operand nested)
def product (nested : Reading Expr) : Reading Expr := leftGrouped productOperator? (signed (suffixed nested))
def sum (nested : Reading Expr) : Reading Expr := leftGrouped sumOperator? (product nested)
def comparison (nested : Reading Expr) : Reading Expr := single comparison? (sum nested)
def conjunction (nested : Reading Expr) : Reading Expr := leftGrouped andOperator? (comparison nested)

def expressionOver (nested : Reading Expr) : Reading Expr := leftGrouped orOperator? (conjunction nested)

def expressionTo : (depth : Nat) → Reading Expr
  | 0 => unexpected .expression
  | depth + 1 => expressionOver (expressionTo depth)

def expression : Reading Expr := do
  expressionTo ((← get).pending.length + 1)

def lambda (ty : Ty) : Reading Lambda := do
  let (name, _) ← identifier
  expect .arrow
  let p ← Param.fresh name ty
  let body ← withReader (·.push p) expression
  return ⟨[p], body⟩

def onlyExpression : Reading Expr := do
  let e ← expression
  expect .eof
  return e

end Reading

namespace Expr

def read (types : List ObjectType) (text : String) : ExceptT ParseError Fresh Expr :=
  Reading.all ⟨types, []⟩ text Reading.onlyExpression

end Expr

namespace Lambda

def read (types : List ObjectType) (ty : Ty) (text : String) : ExceptT ParseError Fresh Lambda :=
  Reading.all ⟨types, []⟩ text (Reading.lambda ty)

end Lambda

end SymbolicQuery
