import SymbolicQuery.Error
import SymbolicQuery.Expr.Text
import SymbolicQuery.Supply
import SymbolicQuery.Ty.Accepts

/-! Building expressions. Each function makes a new node after it has checked the types of the
parts, so every expression that was built is well typed in its operators, calls, conversions and
constructions. -/
namespace SymbolicQuery

abbrev Build := ExceptT QueryError Fresh

def Param.fresh (name : String) (ty : Ty) : Fresh Param := return ⟨← freshParam, name, ty⟩

def Source.fresh (itemName : String) (itemType : Ty) : Fresh Source :=
  return ⟨← freshSource, itemName, itemType⟩

namespace Build

def ensure (condition : Bool) (error : QueryError) : Build Unit :=
  if condition then pure () else throw error

def constant (value : Value) (ty : Ty) : Build Expr := do
  ensure (ty.accepts value) (.mismatch .constant ty.text value.kindName)
  return .constant (← freshNode) ty value

def integer (n : Int64) : Fresh Expr := return .constant (← freshNode) .int (.integer n)
def float (x : Binary64) : Fresh Expr := return .constant (← freshNode) .float (.float x)
def string (s : String) : Fresh Expr := return .constant (← freshNode) .string (.string s)
def boolean (b : Bool) : Fresh Expr := return .constant (← freshNode) .bool (.boolean b)
def null : Fresh Expr := return .constant (← freshNode) .any .null

def parameter (param : Param) : Fresh Expr := return .parameter (← freshNode) param
def reference (source : Source) : Fresh Expr := return .reference (← freshNode) source

def readNode (object : Expr) (member : Member) : Fresh Expr := do
  let id ← freshNode
  return if member.isMethod then .getter id object member else .access id object member

def undeclared (t : Ty) (member : Member) : QueryError :=
  .mismatch (.access member.path) member.declaredOn t.text

def access (object : Expr) (member : Member) : Build Expr := do
  ensure (!member.isMethod) (.misuse (.readsMethod member.path))
  ensure (object.ty.declares member) (undeclared object.ty member)
  return .access (← freshNode) object member

def getter (object : Expr) (member : Member) : Build Expr := do
  ensure member.isMethod (.misuse (.callsValue member.path))
  ensure (object.ty.declares member) (undeclared object.ty member)
  return .getter (← freshNode) object member

def read (object : Expr) (member : Member) : Build Expr := do
  ensure (object.ty.declares member) (undeclared object.ty member)
  readNode object member

def binary (op : BinaryOp) (left right : Expr) : Build Expr := do
  match op.result? left.ty right.ty with
  | some ty => return .binary (← freshNode) ty op left right
  | none => throw (.mismatch (.operands op.symbol) left.ty.text right.ty.text)

def unary (op : UnaryOp) (operand : Expr) : Build Expr := do
  match op.result? operand.ty with
  | some ty => return .unary (← freshNode) ty op operand
  | none => throw (.mismatch .negation "numeric" operand.ty.text)

def textCall (receiver : Expr) (method : TextMethod) (args : List Expr) : Build Expr := do
  ensure (receiver.ty == .string || receiver.ty == .any)
    (.mismatch (.call method.name) Ty.string.text receiver.ty.text)
  ensure (args.length == method.arity) (.misuse (.callArity method.name method.arity args.length))
  match args.find? fun arg => !Ty.string.assignable arg.ty with
  | some arg => throw (.mismatch (.callArgument method.name) Ty.string.text arg.ty.text)
  | none => return .textCall (← freshNode) method receiver args

def stageCall (input : Expr) (stage : Stage) (args : List Expr) (ty : Ty) : Build Expr := do
  ensure (input.ty.item?.isSome || input.ty == .any)
    (.mismatch (.call stage.name) "sequence" input.ty.text)
  return .stageCall (← freshNode) ty stage input args

def conversionError (target source : Ty) : QueryError := .mismatch .conversion target.text source.text

def convert (checked : Bool) (operand : Expr) (ty : Ty) : Build Expr := do
  ensure (operand.ty.convertible ty) (conversionError ty operand.ty)
  return .convert (← freshNode) ty checked operand

def checkAssignment (member : Member) (value : Expr) : Build Unit :=
  ensure (member.ty.assignable value.ty)
    (.mismatch (.assignment member.path) member.ty.text value.ty.text)

def checkMember (type : ObjectType) (member : Member) : Build Unit :=
  ensure (type.members.contains member) (.misuse (.notAMember member.path type.name))

/-- A construction. Without members the arguments follow the members of the type in order, or are
absent; with members each argument is for the member beside it. -/
def construct (type : ObjectType) (members : List Member) (args : List Expr) : Build Expr := do
  if members.isEmpty then
    ensure (args.isEmpty || args.length == type.members.length)
      (.misuse (.constructorArity type.name type.members.length args.length))
    (type.members.zip args).forM fun (member, arg) => checkAssignment member arg
  else
    ensure (members.length == args.length)
      (.misuse (.memberCount type.name members.length args.length))
    (members.zip args).forM fun (member, arg) => do
      checkMember type member
      checkAssignment member arg
  return .construct (← freshNode) type members args

def anonymous (fields : List (String × Expr)) : Fresh Expr := do
  let type := ObjectOf.ofShape (fields.map fun f => (f.1, f.2.ty))
  return .construct (← freshNode) type type.members (fields.map (·.2))

def checkBinding (type : ObjectType) (binding : Binding) : Build Unit := do
  checkMember type binding.member
  match binding with
  | .assign member value => checkAssignment member value
  | .collect member items =>
    match member.ty.item? with
    | none => throw (.mismatch (.collection member.path) "sequence" member.ty.text)
    | some item =>
      items.forM fun e =>
        ensure (item.assignable e.ty) (.mismatch (.collection member.path) item.text e.ty.text)

def populate (base : Expr) (bindings : List Binding) : Build Expr := do
  match base with
  | .construct _ type _ _ =>
    bindings.forM (checkBinding type)
    return .populate (← freshNode) type base bindings
  | _ => throw (.misuse .notAConstruction)

end Build

def Lambda.toExpr (l : Lambda) : Fresh Expr := return .lambda (← freshNode) l.params l.body

end SymbolicQuery
