import SymbolicQuery.Expr.Text
import SymbolicQuery.Value.Arithmetic
import SymbolicQuery.Value.Texts

/-! The value of an expression under an assignment. Parts are evaluated from the left, the first
error wins, and `and` and `or` leave their right side alone where the left one decides. -/
namespace SymbolicQuery

structure Assignment where
  param : Param → Option Value
  source : Nat → Option Value

namespace Assignment

def empty : Assignment := ⟨fun _ => none, fun _ => none⟩

def bind (a : Assignment) (p : Param) (v : Value) : Assignment :=
  { a with param := fun q => if q = p then some v else a.param q }

def bindSource (a : Assignment) (s : Source) (v : Value) : Assignment :=
  { a with source := fun id => if id = s.id then some v else a.source id }

end Assignment

namespace Expr

mutual

def eval (a : Assignment) : Expr → Except QueryError Value
  | .constant _ _ value => .ok value
  | .parameter _ p =>
    match a.param p with
    | some v => .ok v
    | none => .error (.failure (.unbound p.name))
  | .reference _ s =>
    match a.source s.id with
    | some v => .ok v
    | none => .error (.unresolved s.itemName .inEvaluation)
  | .access _ object member | .getter _ object member => do
    let v ← object.eval a
    v.read member.name
  | .unary _ _ op operand => do
    let v ← operand.eval a
    v.applyUnary op
  | .binary _ _ op left right => do
    let l ← left.eval a
    if op = .and ∧ l.isTrue = false then return .boolean false
    else if op = .or ∧ l.isTrue = true then return .boolean true
    else
      let r ← right.eval a
      l.apply op r
  | .textCall _ method receiver args => do
    let v ← receiver.eval a
    let vs ← evalAll a args
    v.callText method vs
  | .stageCall _ _ stage _ _ => .error (.unsupported (.stageValue stage.name))
  | .convert _ ty checked operand => do
    let v ← operand.eval a
    v.convert checked ty
  | .construct _ type members args => do
    let names := (if members.isEmpty then type.members else members).map (·.name)
    if members.isEmpty ∧ args.isEmpty then
      return .object (Fields.ofList (names.map (·, .null)))
    else return .object (← evalFields a [] names args)
  | .populate _ _ base bindings => do
    match ← base.eval a with
    | .object fields => return .object (← evalBindings a fields bindings)
    | v => .error (.failure (.populates v.kindName))
  | .lambda _ params body => .error (.unsupported (.lambdaValue (Lambda.text ⟨params, body⟩)))

def evalAll (a : Assignment) : List Expr → Except QueryError (List Value)
  | [] => .ok []
  | e :: rest => do
    let v ← e.eval a
    return v :: (← evalAll a rest)

def evalFields (a : Assignment) (fields : Fields Value) : List String → List Expr → Except QueryError (Fields Value)
  | name :: names, e :: rest => do
    let v ← e.eval a
    evalFields a (fields.put name v) names rest
  | _, _ => .ok fields

def evalBindings (a : Assignment) (fields : Fields Value) : List Binding → Except QueryError (Fields Value)
  | [] => .ok fields
  | .assign member value :: rest => do
    let v ← value.eval a
    evalBindings a (fields.put member.name v) rest
  | .collect member items :: rest => do
    let vs ← evalAll a items
    evalBindings a (fields.put member.name (.array vs)) rest

end

def evalClosed (e : Expr) : Except QueryError Value := e.eval .empty

end Expr

/-- A function literal that refers to no query source, and so can be called on values. -/
structure Closed where
  lambda : Lambda
  closed : lambda.body.references = []

namespace Lambda

def close (l : Lambda) : Except QueryError Closed :=
  match h : l.body.references with
  | [] => .ok ⟨l, h⟩
  | e :: _ => .error (.unresolved ((e.asSource?.map Source.itemName).getD "") (.inLambda l.text))

def bindArguments (a : Assignment) : List Param → List Value → Except QueryError Assignment
  | p :: ps, v :: vs =>
    if p.ty.accepts v then bindArguments (a.bind p v) ps vs
    else .error (.mismatch (.argument p.name) p.ty.text v.kindName)
  | _, _ => .ok a

end Lambda

namespace Closed

def call (f : Closed) (args : List Value) : Except QueryError Value := do
  let params := f.lambda.params
  if params.length ≠ args.length then
    .error (.misuse (.lambdaArity f.lambda.text params.length args.length))
  else
    let a ← Lambda.bindArguments .empty params args
    f.lambda.body.eval a

end Closed

end SymbolicQuery
