/-! Fresh identities. Nodes, parameters and sources are numbered apart; the numbers that are given
out before an error stay given out. -/
namespace SymbolicQuery

structure Supply where
  node : Nat
  param : Nat
  source : Nat

abbrev Fresh := StateM Supply

namespace Supply

def start : Supply := ⟨0, 0, 0⟩

end Supply

def freshNode : Fresh Nat := modifyGet fun s => (s.node, { s with node := s.node + 1 })
def freshParam : Fresh Nat := modifyGet fun s => (s.param, { s with param := s.param + 1 })
def freshSource : Fresh Nat := modifyGet fun s => (s.source, { s with source := s.source + 1 })

end SymbolicQuery
