import SymbolicQuery.Expr.Build

/-! Paths into constructions. A path leads from an instance of a construction to the value of a
node inside it: by reading members that the construction names, and back through conversions.
The searched node is told by its identity; if it stands in several places the last one wins. -/
namespace SymbolicQuery

inductive Step where
  | read (member : Member)
  | convertBack (ty : Ty)
  deriving DecidableEq

abbrev Path := List Step

namespace Step

def target : Step → Ty
  | read member => member.ty
  | convertBack ty => ty

def allowed (ty : Ty) : Step → Bool
  | read member => ty.declares member
  | convertBack target => ty.convertible target

def refusal (ty : Ty) : Step → QueryError
  | read member => Build.undeclared ty member
  | convertBack target => Build.conversionError target ty

def take (e : Expr) : Step → Fresh Expr
  | read member => Build.readNode e member
  | convertBack ty => return .convert (← freshNode) ty false e

end Step

def Path.follow (path : Path) (start : Expr) : Fresh Expr := path.foldlM Step.take start

/-- What a search has met: the last place of the searched node, and the first step that was
refused. The branch behind such a step is passed over. -/
structure Search where
  found : Option Path
  refused : Option QueryError

namespace Search

def start : Search := ⟨none, none⟩

def find (s : Search) (path : Path) : Search := { s with found := some path }

def refuse (s : Search) (error : QueryError) : Search := { s with refused := s.refused.or (some error) }

end Search

namespace Expr

mutual

/-- Searches below a node that `path` leads to, as a value of type `ty`. The search ends at the
searched node, on its branch alone. -/
def search (searched : Expr) (ty : Ty) (path : Path) (s : Search) (e : Expr) : Search :=
  if e = searched then s.find path
  else match e with
    | .construct _ _ members args => searchFields searched ty path s members args
    | .populate _ _ base bindings =>
      searchBindings searched ty path (search searched ty path s base) bindings
    | .convert _ _ _ operand =>
      let step := Step.convertBack operand.ty
      if step.allowed ty then search searched step.target (path ++ [step]) s operand
      else s.refuse (step.refusal ty)
    | _ => s

def searchFields (searched : Expr) (ty : Ty) (path : Path) (s : Search) : List Member → List Expr → Search
  | member :: members, arg :: args =>
    let step := Step.read member
    let s :=
      if step.allowed ty then search searched step.target (path ++ [step]) s arg
      else s.refuse (step.refusal ty)
    searchFields searched ty path s members args
  | _, _ => s

def searchBindings (searched : Expr) (ty : Ty) (path : Path) (s : Search) : List Binding → Search
  | [] => s
  | .assign member value :: rest =>
    let step := Step.read member
    let s :=
      if step.allowed ty then search searched step.target (path ++ [step]) s value
      else s.refuse (step.refusal ty)
    searchBindings searched ty path s rest
  | .collect _ _ :: rest => searchBindings searched ty path s rest

end

def locate (searched full : Expr) : Option Path := (search searched full.ty [] .start full).found

def pathTo (searched full : Expr) : Except QueryError Path :=
  let s := search searched full.ty [] .start full
  match s.found, s.refused with
  | some path, _ => .ok path
  | none, some error => .error error
  | none, none => .error (.noPath full.text searched.text)

def accessor (searched full : Expr) (input : Param) : Build Lambda := do
  Build.ensure (input.ty == full.ty) (.mismatch (.pathInput input.name) full.ty.text input.ty.text)
  let path ← pathTo searched full
  return ⟨[input], ← path.follow (← Build.parameter input)⟩

end Expr

end SymbolicQuery
