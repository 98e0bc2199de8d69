import SymbolicQuery.Expr.Pass
import SymbolicQuery.Path

/-! Two forms of one expression: over the parameter of a function, or over the query sources that
an item is described by. Going to sources puts the item's description for the parameter; going
back reads what the description stores from an instance of it. -/
namespace SymbolicQuery

def Expr.argumentFor? (member : Member) : Expr → Option Expr
  | .construct _ _ members args => ((members.zip args).find? (·.1 == member)).map (·.2)
  | .populate _ _ _ bindings =>
    bindings.findSome? fun
      | .assign m value => if m = member then some value else none
      | .collect _ _ => none
  | _ => none

def Expr.foldRead (e : Expr) : Expr :=
  match e with
  | .access _ object member | .getter _ object member => (object.argumentFor? member).getD e
  | e => e

def Pass.putting (p : Param) (replacement : Expr) : Pass Fresh where
  fresh := freshNode
  enter e := pure <| match e with
    | .parameter _ q => if q = p then some replacement else none
    | _ => none
  leave _ after := pure after.foldRead

def Expr.substitute (e : Expr) (p : Param) (replacement : Expr) : Fresh Expr :=
  (Pass.putting p replacement).run e

def Lambda.resolve (l : Lambda) (item : Expr) : Build Expr := do
  match l.params with
  | [p] =>
    Build.ensure (p.ty.assignable item.ty) (.mismatch (.parameter p.name) p.ty.text item.ty.text)
    l.body.substitute p item
  | _ => throw (.misuse (.notOneParameter l.text))

namespace Expr

/-- The path to the last reference to a source in an item that has one; otherwise the error of
the last reference. -/
def sourcePath (item : Expr) (s : Source) : Except QueryError Path :=
  let candidates := item.references.filter fun e => (e.asSource?.map Source.id) == some s.id
  let paths := candidates.reverse.map fun e => e.pathTo item
  match paths.findSome? Except.toOption, paths with
  | some path, _ => .ok path
  | none, .error error :: _ => .error error
  | none, _ => .error (.unresolved s.itemName (.notInItem item.text))

end Expr

/-- The pass that reads nodes back from an instance of `item`, which is a parameter. A node that the
item stores is read from the instance whole; any other reference to a source by the path to it. -/
def Pass.readingBack (item : Expr) (input : Param) : Pass Build where
  fresh := freshNode
  enter e := do
    let follow (path : Path) : Build Expr := do path.follow (← Build.parameter input)
    match e.locate item with
    | some path => return some (← follow path)
    | none =>
      match e with
      | .reference _ s => return some (← follow (← item.sourcePath s))
      | _ => return none
  leave _ after := pure after

def Expr.unresolve (item e : Expr) : Build Lambda := do
  let input ← Param.fresh "input" item.ty
  return ⟨[input], ← (Pass.readingBack item input).run e⟩

end SymbolicQuery
