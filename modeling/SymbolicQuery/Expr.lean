import SymbolicQuery.Operator
import SymbolicQuery.Value

/-! Expressions. Every node has an identity of its own: a node may stand in several expressions,
and two nodes of the same content that were built apart are different. Parameters and query
sources have identities too, and are shown by name. -/
namespace SymbolicQuery

structure Param where
  id : Nat
  name : String
  ty : Ty
  deriving DecidableEq

structure Source where
  id : Nat
  itemName : String
  itemType : Ty
  deriving DecidableEq

inductive BindingOf (ε : Type) where
  | assign (member : Member) (value : ε)
  | collect (member : Member) (items : List ε)

inductive Expr where
  | constant (id : Nat) (ty : Ty) (value : Value)
  | parameter (id : Nat) (param : Param)
  | reference (id : Nat) (source : Source)
  | access (id : Nat) (object : Expr) (member : Member)
  | getter (id : Nat) (object : Expr) (member : Member)
  | unary (id : Nat) (ty : Ty) (op : UnaryOp) (operand : Expr)
  | binary (id : Nat) (ty : Ty) (op : BinaryOp) (left right : Expr)
  | textCall (id : Nat) (method : TextMethod) (receiver : Expr) (args : List Expr)
  | stageCall (id : Nat) (ty : Ty) (stage : Stage) (input : Expr) (args : List Expr)
  | convert (id : Nat) (ty : Ty) (checked : Bool) (operand : Expr)
  | construct (id : Nat) (type : ObjectType) (members : List Member) (args : List Expr)
  | populate (id : Nat) (type : ObjectType) (base : Expr) (bindings : List (BindingOf Expr))
  | lambda (id : Nat) (params : List Param) (body : Expr)

abbrev Binding := BindingOf Expr

def BindingOf.member {ε : Type} : BindingOf ε → Member
  | .assign member _ | .collect member _ => member

structure Lambda where
  params : List Param
  body : Expr

namespace Expr

def id : Expr → Nat
  | .constant id .. | .parameter id .. | .reference id .. | .access id .. | .getter id ..
  | .unary id .. | .binary id .. | .textCall id .. | .stageCall id .. | .convert id ..
  | .construct id .. | .populate id .. | .lambda id .. => id

def ty : Expr → Ty
  | .constant _ ty _ => ty
  | .parameter _ param => param.ty
  | .reference _ source => source.itemType
  | .access _ _ member | .getter _ _ member => member.ty
  | .unary _ ty _ _ | .binary _ ty _ _ _ => ty
  | .textCall _ method _ _ => method.result
  | .stageCall _ ty _ _ _ => ty
  | .convert _ ty _ _ => ty
  | .construct _ type _ _ | .populate _ type _ _ => .object type
  | .lambda _ params body => .function (params.map Param.ty) body.ty

mutual

/-- Whether two expressions are the same node. The identities are compared first; below equal
identities everything is equal. -/
def same : Expr → Expr → Bool
  | .constant i t v, .constant j u w => i == j && t == u && v == w
  | .parameter i p, .parameter j q => i == j && p == q
  | .reference i s, .reference j r => i == j && s == r
  | .access i o m, .access j p n => i == j && m == n && o.same p
  | .getter i o m, .getter j p n => i == j && m == n && o.same p
  | .unary i t op e, .unary j u oq f => i == j && t == u && op == oq && e.same f
  | .binary i t op l r, .binary j u oq k s => i == j && t == u && op == oq && l.same k && r.same s
  | .textCall i m r as, .textCall j n s bs => i == j && m == n && r.same s && sameAll as bs
  | .stageCall i t m s as, .stageCall j u n r bs =>
    i == j && t == u && m == n && s.same r && sameAll as bs
  | .convert i t c e, .convert j u d f => i == j && t == u && c == d && e.same f
  | .construct i t ms as, .construct j u ns bs => i == j && t == u && ms == ns && sameAll as bs
  | .populate i t e as, .populate j u f bs => i == j && t == u && e.same f && sameBindings as bs
  | .lambda i ps e, .lambda j qs f => i == j && ps == qs && e.same f
  | _, _ => false

def sameAll : List Expr → List Expr → Bool
  | [], [] => true
  | a :: as, b :: bs => a.same b && sameAll as bs
  | _, _ => false

def sameBindings : List Binding → List Binding → Bool
  | [], [] => true
  | .assign m e :: as, .assign n f :: bs => m == n && e.same f && sameBindings as bs
  | .collect m es :: as, .collect n fs :: bs => m == n && sameAll es fs && sameBindings as bs
  | _, _ => false

end

mutual

theorem sameIff : (a b : Expr) → (a.same b = true ↔ a = b)
  | .constant .., b | .parameter .., b | .reference .., b => by cases b <;> simp [same, and_assoc]
  | .access _ o _, b => by cases b <;> simp [same, sameIff o]; grind
  | .getter _ o _, b => by cases b <;> simp [same, sameIff o]; grind
  | .unary _ _ _ e, b => by cases b <;> simp [same, sameIff e, and_assoc]
  | .binary _ _ _ l r, b => by cases b <;> simp [same, sameIff l, sameIff r, and_assoc]
  | .textCall _ _ r as, b => by cases b <;> simp [same, sameIff r, sameAllIff as, and_assoc]
  | .stageCall _ _ _ s as, b => by cases b <;> simp [same, sameIff s, sameAllIff as, and_assoc]
  | .convert _ _ _ e, b => by cases b <;> simp [same, sameIff e, and_assoc]
  | .construct _ _ _ as, b => by cases b <;> simp [same, sameAllIff as, and_assoc]
  | .populate _ _ e as, b => by cases b <;> simp [same, sameIff e, sameBindingsIff as, and_assoc]
  | .lambda _ _ e, b => by cases b <;> simp [same, sameIff e, and_assoc]

theorem sameAllIff : (as bs : List Expr) → (sameAll as bs = true ↔ as = bs)
  | [], bs => by cases bs <;> simp [sameAll]
  | a :: as, bs => by cases bs <;> simp [sameAll, sameIff a, sameAllIff as]

theorem sameBindingsIff : (as bs : List Binding) → (sameBindings as bs = true ↔ as = bs)
  | [], bs => by cases bs <;> simp [sameBindings]
  | .assign _ e :: as, bs => by
    cases bs with
    | nil => simp [sameBindings]
    | cons b bs => cases b <;> simp [sameBindings, sameIff e, sameBindingsIff as]
  | .collect _ es :: as, bs => by
    cases bs with
    | nil => simp [sameBindings]
    | cons b bs => cases b <;> simp [sameBindings, sameAllIff es, sameBindingsIff as]

end

instance : DecidableEq Expr := fun a b => decidable_of_iff _ (sameIff a b)

instance : Inhabited Expr := ⟨.constant 0 .any .null⟩

mutual

def nodes : Expr → List Expr
  | e@(.constant ..) | e@(.parameter ..) | e@(.reference ..) => [e]
  | e@(.access _ object _) | e@(.getter _ object _) => e :: object.nodes
  | e@(.unary _ _ _ operand) | e@(.convert _ _ _ operand) => e :: operand.nodes
  | e@(.binary _ _ _ left right) => e :: (left.nodes ++ right.nodes)
  | e@(.textCall _ _ receiver args) => e :: (receiver.nodes ++ nodesAll args)
  | e@(.stageCall _ _ _ input args) => e :: (input.nodes ++ nodesAll args)
  | e@(.construct _ _ _ args) => e :: nodesAll args
  | e@(.populate _ _ base bindings) => e :: (base.nodes ++ nodesBindings bindings)
  | e@(.lambda _ _ body) => e :: body.nodes

def nodesAll : List Expr → List Expr
  | [] => []
  | e :: rest => e.nodes ++ nodesAll rest

def nodesBindings : List Binding → List Expr
  | [] => []
  | .assign _ value :: rest => value.nodes ++ nodesBindings rest
  | .collect _ items :: rest => nodesAll items ++ nodesBindings rest

end

def asSource? : Expr → Option Source
  | .reference _ source => some source
  | _ => none

def asLambda? : Expr → Option Lambda
  | .lambda _ params body => some ⟨params, body⟩
  | _ => none

def references (e : Expr) : List Expr := e.nodes.filter (·.asSource?.isSome)

def sources (e : Expr) : List Source := e.nodes.filterMap asSource?

end Expr

def Lambda.ty (l : Lambda) : Ty := .function (l.params.map Param.ty) l.body.ty

end SymbolicQuery
