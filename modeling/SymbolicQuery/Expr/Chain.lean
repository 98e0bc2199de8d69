import SymbolicQuery.Expr.Reader

/-! Chains as text: a dollar sign for the sequence at the root, then calls. The type of a chain is
found call by call, and the functions that a call takes are over the items before it. -/
namespace SymbolicQuery

namespace Reading

def callArguments (input item : Ty) : Stage → Reading (List Expr × Ty)
  | .filter | .sort | .sortDescending => do
    let f ← lambda item
    return ([← f.toExpr], input)
  | .project => do
    let f ← lambda item
    return ([← f.toExpr], .sequence f.body.ty)
  | .group => do
    let key ← lambda item
    if ← accepts .comma then
      let element ← lambda item
      return ([← key.toExpr, ← element.toExpr], .sequence (.grouping key.body.ty element.body.ty))
    else return ([← key.toExpr], .sequence (.grouping key.body.ty item))
  | .take | .skip => return ([← expression], input)
  | .distinct => return ([], input)
  | .count => return ([], .int)
  | .first | .firstOrNull => return ([], item)

def call (input : Expr) : Reading Expr := do
  let (name, position) ← identifier
  match Stage.ofName? name with
  | none => throw (.unknownStage name position)
  | some stage =>
    expect .openParen
    let (args, ty) ← callArguments input.ty (input.ty.item?.getD .any) stage
    expect .closeParen
    build position (Build.stageCall input stage args ty)

def link (e : Expr) : Reading (Option Expr) := do
  if ← accepts .dot then return some (← call e) else return none

def chain (root : Expr) : Reading Expr := do
  expect .dollar
  let e ← iterate link root
  expect .eof
  return e

end Reading

def Expr.readChain (types : List ObjectType) (root : Expr) (text : String) : ExceptT ParseError Fresh Expr :=
  Reading.all ⟨types, []⟩ text (Reading.chain root)

end SymbolicQuery
