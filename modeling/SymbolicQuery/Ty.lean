/-! Static types. An object type lists its members in order; a member is known by the type that
declares it, so members of one name on two types differ. Types are compared by structure. -/
namespace SymbolicQuery

inductive MemberKind where
  | field | property | method
  deriving DecidableEq, Repr

structure MemberOf (τ : Type) where
  name : String
  declaredOn : String
  ty : τ
  kind : MemberKind

structure ObjectOf (τ : Type) where
  name : String
  members : List (MemberOf τ)
  anonymous : Bool

inductive Ty where
  | any | bool | int | float | decimal | string
  | object (type : ObjectOf Ty)
  | sequence (item : Ty)
  | grouping (key element : Ty)
  | function (params : List Ty) (result : Ty)

abbrev Member := MemberOf Ty
abbrev ObjectType := ObjectOf Ty

instance : Inhabited Ty := ⟨.any⟩

namespace Ty

mutual

def same : Ty → Ty → Bool
  | .any, .any | .bool, .bool | .int, .int | .float, .float | .decimal, .decimal
  | .string, .string => true
  | .object a, .object b =>
    a.name == b.name && a.anonymous == b.anonymous && sameMembers a.members b.members
  | .sequence a, .sequence b => a.same b
  | .grouping k e, .grouping l f => k.same l && e.same f
  | .function ps r, .function qs s => sameAll ps qs && r.same s
  | _, _ => false

def sameMembers : List Member → List Member → Bool
  | [], [] => true
  | m :: ms, n :: ns =>
    m.name == n.name && m.declaredOn == n.declaredOn && m.kind == n.kind && m.ty.same n.ty &&
      sameMembers ms ns
  | _, _ => false

def sameAll : List Ty → List Ty → Bool
  | [], [] => true
  | a :: as, b :: bs => a.same b && sameAll as bs
  | _, _ => false

end

mutual

theorem sameIff : (a b : Ty) → (a.same b = true ↔ a = b)
  | .object ⟨_, ms, _⟩, b => by
    cases b <;> simp [same]
    rename_i o; obtain ⟨_, ns, _⟩ := o
    simp [sameMembersIff ms ns]; grind
  | .sequence a, b => by cases b <;> simp [same]; exact sameIff a _
  | .grouping k e, b => by cases b <;> simp [same, sameIff k, sameIff e]
  | .function ps r, b => by cases b <;> simp [same, sameAllIff ps, sameIff r]
  | .any, b | .bool, b | .int, b | .float, b | .decimal, b | .string, b => by cases b <;> simp [same]

theorem sameMembersIff : (ms ns : List Member) → (sameMembers ms ns = true ↔ ms = ns)
  | [], ns => by cases ns <;> simp [sameMembers]
  | ⟨_, _, t, _⟩ :: ms, ns => by
    cases ns with
    | nil => simp [sameMembers]
    | cons n ns =>
      obtain ⟨_, _, u, _⟩ := n
      simp [sameMembers, sameIff t, sameMembersIff ms]; grind

theorem sameAllIff : (as bs : List Ty) → (sameAll as bs = true ↔ as = bs)
  | [], bs => by cases bs <;> simp [sameAll]
  | a :: as, bs => by cases bs <;> simp [sameAll, sameIff a, sameAllIff as]

end

instance : DecidableEq Ty := fun a b => decidable_of_iff _ (sameIff a b)

end Ty

deriving instance DecidableEq for MemberOf
deriving instance DecidableEq for ObjectOf

namespace MemberOf

def path (m : Member) : String := m.declaredOn ++ "::" ++ m.name

def isMethod (m : Member) : Bool := m.kind == .method

end MemberOf

namespace Ty

def openBrace : String := "\x7b"
def closeBrace : String := "\x7d"

mutual

def text : Ty → String
  | .any => "any"
  | .bool => "bool"
  | .int => "int"
  | .float => "float"
  | .decimal => "decimal"
  | .string => "string"
  | .object o => o.name
  | .sequence item => "seq<" ++ item.text ++ ">"
  | .grouping key element => "grouping<" ++ key.text ++ ", " ++ element.text ++ ">"
  | .function params result => "fn(" ++ ", ".intercalate (texts params) ++ ") -> " ++ result.text

def texts : List Ty → List String
  | [] => []
  | t :: ts => t.text :: texts ts

end

end Ty

namespace ObjectOf

def declare (name : String) (members : List (String × Ty)) (anonymous : Bool) : ObjectType :=
  ⟨name, members.map fun m => ⟨m.1, name, m.2, .property⟩, anonymous⟩

def named (name : String) (members : List (String × Ty)) : ObjectType := declare name members false

def ofShape (members : List (String × Ty)) : ObjectType :=
  let shape := ", ".intercalate (members.map fun m => m.1 ++ ": " ++ m.2.text)
  declare (Ty.openBrace ++ shape ++ Ty.closeBrace) members true

def member? (o : ObjectType) (name : String) : Option Member := o.members.find? (·.name == name)

end ObjectOf

namespace Ty

def item? : Ty → Option Ty
  | .sequence item => some item
  | _ => none

def isNumeric : Ty → Bool
  | .int | .float | .decimal => true
  | _ => false

def assignable : (target source : Ty) → Bool
  | .any, _ | _, .any => true
  | .sequence a, .sequence b => a.assignable b
  | .grouping k e, .grouping l f => k.assignable l && e.assignable f
  | a, b => a == b

theorem assignableSelf : (t : Ty) → t.assignable t = true
  | .sequence item => by simp [assignable, assignableSelf item]
  | .grouping key element => by simp [assignable, assignableSelf key, assignableSelf element]
  | .any | .bool | .int | .float | .decimal | .string | .object _ | .function _ _ => by
    simp [assignable]

def convertible : (source target : Ty) → Bool
  | .any, _ | _, .any => true
  | .object _, .object _ => true
  | a, b => a == b || (a.isNumeric && b.isNumeric)

/-- The member that a name reads on a type. A grouping has its key; `any` has every name. -/
def member? (name : String) (t : Ty) : Option Member :=
  match t with
  | .object o => o.member? name
  | .grouping key _ => if name = "key" then some ⟨"key", t.text, key, .property⟩ else none
  | .any => some ⟨name, "any", .any, .property⟩
  | _ => none

def declares (t : Ty) (m : Member) : Bool :=
  match t with
  | .any => true
  | .object o => o.members.contains m
  | .grouping key _ => m.name == "key" && m.ty == key
  | _ => false

end Ty

end SymbolicQuery
