import SymbolicQuery.Text.CaseTable
import SymbolicQuery.Text.Character

/-! Upper and lower case of texts. A character may have several for its other case, and the
lower case of a capital sigma depends on whether it ends a word. -/
namespace SymbolicQuery.Text

def CaseRun.image? (n : Nat) (r : CaseRun) : Option Nat :=
  if r.first ≤ n ∧ n ≤ r.last ∧ (n - r.first) % r.step = 0 then some (n + r.offset).toNat else none

def mapCase (runs : List CaseRun) (n : Nat) : Nat := (runs.findSome? (CaseRun.image? n)).getD n

def upperOf (c : Char) : List Char :=
  if c.toNat < 128 then [c.toUpper]
  else match upperSequences.find? (·.1 == c.toNat) with
    | some (_, ns) => ns.map Char.ofNat
    | none => [Char.ofNat (mapCase upperRuns c.toNat)]

/-- Only the capital I with a dot has a lower case of two characters. -/
def lowerOf (c : Char) : List Char :=
  if c.toNat < 128 then [c.toLower]
  else if c.toNat = 0x130 then ['i', Char.ofNat 0x307]
  else [Char.ofNat (mapCase lowerRuns c.toNat)]

def foldOf (n : Nat) : Nat := mapCase foldRuns n

def toUpper (s : String) : String := String.ofList (s.toList.flatMap upperOf)

def meetsCased (cs : List Char) : Bool :=
  match cs.dropWhile isCaseIgnorable with
  | c :: _ => isCased c
  | [] => false

def lowerFrom : (before after : List Char) → List Char
  | _, [] => []
  | before, c :: after =>
    let lowered :=
      if c.toNat = 0x3a3 then
        if meetsCased before && !meetsCased after then [Char.ofNat 0x3c2] else [Char.ofNat 0x3c3]
      else lowerOf c
    lowered ++ lowerFrom (c :: before) after

def toLower (s : String) : String := String.ofList (lowerFrom [] s.toList)

end SymbolicQuery.Text
