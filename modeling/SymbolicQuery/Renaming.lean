import SymbolicQuery.Expr.Build
import SymbolicQuery.Expr.Pass

/-! Renaming of query sources. A renaming remembers what became of nodes, so that a
node shared by several expressions is shared by their renamed forms too. -/
namespace SymbolicQuery

structure Renaming where
  sources : List (Nat × Source)
  images : List (Expr × Expr)

namespace Renaming

def empty : Renaming := ⟨[], []⟩

def add (r : Renaming) (source image : Source) : Renaming :=
  { r with sources := (source.id, image) :: r.sources }

def lookup? (r : Renaming) (id : Nat) : Option Source := r.sources.lookup id

def known? (r : Renaming) (e : Expr) : Option Expr := r.images.lookup e

def note (r : Renaming) (before after : Expr) : Renaming :=
  if after = before then r else { r with images := (before, after) :: r.images }

end Renaming

abbrev Renamed := StateT Renaming Fresh

namespace Renamed

def add (source image : Source) : Renamed Unit := modify (·.add source image)

end Renamed

/-- The pass that renames references to sources. Without any renamed source below it a node is the same node. -/
def Pass.renamingSources : Pass Renamed where
  fresh := freshNode
  enter e := return (← get).known? e
  leave before after := do
    let after ← match before with
      | .reference _ s =>
        match (← get).lookup? s.id with
        | some image => Build.reference image
        | none => pure after
      | _ => pure after
    modify (·.note before after)
    return after

def Renamed.rename (e : Expr) : Renamed Expr := Pass.renamingSources.run e

end SymbolicQuery
