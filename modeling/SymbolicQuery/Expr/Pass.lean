import SymbolicQuery.Expr
import SymbolicQuery.Supply

/-! Passes over expressions. A pass says which nodes it replaces outright and what becomes of a node
whose parts it has gone through; a node none of whose parts changed stays the same node. A rebuilt
node keeps its type, but for function literals and member reads, whose type follows their parts. -/
namespace SymbolicQuery

structure Pass (m : Type → Type) where
  fresh : m Nat
  enter : Expr → m (Option Expr)
  leave : (before after : Expr) → m Expr

namespace Pass
variable {m : Type → Type} [Monad m]

def settle (p : Pass m) (before : Expr) (unchanged : Bool) (rebuilt : Nat → Expr) : m Expr := do
  if unchanged then p.leave before before else p.leave before (rebuilt (← p.fresh))

mutual

def run (p : Pass m) (e : Expr) : m Expr := do
  match ← p.enter e with
  | some replacement => pure replacement
  | none =>
    match e with
    | .constant .. | .parameter .. | .reference .. => p.leave e e
    | .access id object member => do
      let object' ← run p object
      p.settle (.access id object member) (object' = object) (.access · object' member)
    | .getter id object member => do
      let object' ← run p object
      p.settle (.getter id object member) (object' = object) (.getter · object' member)
    | .unary id ty op operand => do
      let operand' ← run p operand
      p.settle (.unary id ty op operand) (operand' = operand) (.unary · ty op operand')
    | .binary id ty op left right => do
      let left' ← run p left
      let right' ← run p right
      p.settle (.binary id ty op left right) (left' = left && right' = right)
        (.binary · ty op left' right')
    | .textCall id method receiver args => do
      let receiver' ← run p receiver
      let args' ← runAll p args
      p.settle (.textCall id method receiver args) (receiver' = receiver && args' = args)
        (.textCall · method receiver' args')
    | .stageCall id ty stage input args => do
      let input' ← run p input
      let args' ← runAll p args
      p.settle (.stageCall id ty stage input args) (input' = input && args' = args)
        (.stageCall · ty stage input' args')
    | .convert id ty checked operand => do
      let operand' ← run p operand
      p.settle (.convert id ty checked operand) (operand' = operand) (.convert · ty checked operand')
    | .construct id type members args => do
      let args' ← runAll p args
      p.settle (.construct id type members args) (args' = args) (.construct · type members args')
    | .populate id type base bindings => do
      let base' ← run p base
      let bindings' ← runBindings p bindings
      p.settle (.populate id type base bindings)
        (base' = base && Expr.sameBindings bindings' bindings) (.populate · type base' bindings')
    | .lambda id params body => do
      let body' ← run p body
      p.settle (.lambda id params body) (body' = body) (.lambda · params body')

def runAll (p : Pass m) : List Expr → m (List Expr)
  | [] => pure []
  | e :: rest => return (← run p e) :: (← runAll p rest)

def runBindings (p : Pass m) : List Binding → m (List Binding)
  | [] => pure []
  | .assign member value :: rest => return .assign member (← run p value) :: (← runBindings p rest)
  | .collect member items :: rest =>
    return .collect member (← runAll p items) :: (← runBindings p rest)

end

end Pass

namespace Expr

def visited (e : Expr) : Fresh Expr :=
  Pass.run ⟨freshNode, fun _ => pure none, fun _ after => pure after⟩ e

def replaceNode (e source target : Expr) : Fresh Expr :=
  Pass.run
    ⟨freshNode, fun e => pure (if e = source then some target else none), fun _ after => pure after⟩ e

end Expr

end SymbolicQuery
