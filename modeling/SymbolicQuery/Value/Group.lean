import SymbolicQuery.Value.Key

/-! Values without repeats, and values gathered under keys. Keys stand in the order in which they
were first met, and a key is shown by the first value that was that key. -/
namespace SymbolicQuery

abbrev Group := Value × List Value

namespace Group

def toValue (g : Group) : Value := .grouping g.1 g.2

end Group

namespace Value

def distinct : List Value → List Value
  | [] => []
  | v :: rest => v :: (distinct rest).filter fun w => !v.sameKey w

theorem distinctSublist : (values : List Value) → (distinct values).Sublist values
  | [] => List.Sublist.slnil
  | _ :: rest => (List.filter_sublist.trans (distinctSublist rest)).cons_cons _

def addToGroup (groups : List Group) (key element : Value) : List Group :=
  match groups with
  | [] => [(key, [element])]
  | g :: rest =>
    if g.1.sameKey key then (g.1, g.2 ++ [element]) :: rest else g :: addToGroup rest key element

def group (pairs : List (Value × Value)) : List Group :=
  pairs.foldl (fun groups pair => addToGroup groups pair.1 pair.2) []

end Value

end SymbolicQuery
