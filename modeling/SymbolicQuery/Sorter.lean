/-! Sorts of items that are known by their places, and told apart only by asking which of two is less. A sort to which the
answers make no sense stops. -/
namespace SymbolicQuery

inductive Sorter (ι α : Type) where
  | done (result : α)
  | stopped
  | compares (x y : ι) (next : Bool → Sorter ι α)

namespace Sorter

variable {ι α β ε : Type}

def bind : Sorter ι α → (α → Sorter ι β) → Sorter ι β
  | done a, f => f a
  | stopped, _ => stopped
  | compares x y next, f => compares x y fun less => (next less).bind f

instance : Monad (Sorter ι) where
  pure := done
  bind := bind

def less (x y : ι) : Sorter ι Bool := compares x y done

/-- Runs a sort over an order that may fail. Items that it fails on are taken for equal, and the sort goes on; but the first
failure is what it ends with. A sort that stops has no end of its own. -/
def run (order : ι → ι → Except ε Ordering) (stop : ε) : Option ε → Sorter ι α → Except ε α
  | failed, done a => failed.elim (.ok a) .error
  | _, stopped => .error stop
  | failed, compares x y next =>
    match order x y with
    | .ok o => (next (o == .lt)).run order stop failed
    | .error e => (next false).run order stop (failed.or (some e))

def insertLast (x : ι) : List ι → Sorter ι (List ι)
  | [] => return [x]
  | y :: rest => do
    if ← less x y then return y :: (← insertLast x rest)
    else return x :: y :: rest

def insertAll (sorted items : List ι) : Sorter ι (List ι) :=
  return (← items.foldlM (fun sorted x => insertLast x sorted) sorted).reverse

def crossPairs (a b c d : ι) : Sorter ι (List ι) := do
  let low ← less c a
  let high ← less d b
  let left := if low then a else if high then c else b
  let right := if high then d else if low then b else c
  let crossed ← less right left
  let least := if low then c else a
  let most := if high then b else d
  return if crossed then [most, left, right, least] else [most, right, left, least]

def sortFour (a b c d : ι) : Sorter ι (List ι) := do
  let swapped ← less b a
  let swapped' ← less d c
  let (a, b) := if swapped then (b, a) else (a, b)
  let (c, d) := if swapped' then (d, c) else (c, d)
  crossPairs a b c d

def sortHalf (four : Bool) (items : List ι) : Sorter ι (List ι) :=
  match four, items with
  | true, a :: b :: c :: d :: rest => do insertAll (← sortFour a b c d) rest
  | _, items => insertAll [] items

/-- A merge from both ends. What is left of the two lists stands in order for the one end, and for the other end with the
last first. -/
structure Meeting (ι : Type) where
  left : List ι
  right : List ι
  leftBack : List ι
  rightBack : List ι
  low : List ι
  high : List ι

namespace Meeting

def front (m : Meeting ι) : Sorter ι (Meeting ι) :=
  match m.left, m.right with
  | x :: left, y :: right => do
    if ← less y x then return { m with right, low := y :: m.low }
    else return { m with left, low := x :: m.low }
  | _, _ => return m

def back (m : Meeting ι) : Sorter ι (Meeting ι) :=
  match m.leftBack, m.rightBack with
  | x :: leftBack, y :: rightBack => do
    if ← less y x then return { m with leftBack, high := x :: m.high }
    else return { m with rightBack, high := y :: m.high }
  | _, _ => return m

def both (m : Meeting ι) : Sorter ι (Meeting ι) := do (← m.front).back

def steps : Nat → Meeting ι → Sorter ι (Meeting ι)
  | 0, m => return m
  | n + 1, m => do steps n (← m.both)

def middle (left : Nat) (m : Meeting ι) : Meeting ι × List ι :=
  if left < m.left.length + m.leftBack.length then ({ m with left := m.left.tail }, m.left.take 1)
  else ({ m with right := m.right.tail }, m.right.take 1)

/-- Both ends must have come to the same place in each of the two lists. -/
def close (left right : Nat) (m : Meeting ι) : Sorter ι (List ι) :=
  let (m, between) := if (left + right) % 2 = 0 then (m, []) else m.middle left
  if m.left.length + m.leftBack.length = left ∧ m.right.length + m.rightBack.length = right then
    return m.low.reverse ++ between ++ m.high
  else stopped

end Meeting

def meet (left right : List ι) : Sorter ι (List ι) := do
  (← Meeting.steps left.length ⟨left, right, left.reverse, right.reverse, [], []⟩).close left.length right.length

def sortShort (items : List ι) : Sorter ι (List ι) := do
  if items.length < 2 then return items
  let four := 8 ≤ items.length
  let left ← sortHalf four (items.take (items.length / 2))
  let right ← sortHalf four (items.drop (items.length / 2))
  meet left right

def mergeUp (merged : List ι) : List ι → List ι → Sorter ι (List ι)
  | x :: left, y :: right => do
    if ← less y x then mergeUp (y :: merged) (x :: left) right
    else mergeUp (x :: merged) left (y :: right)
  | left, right => return merged.reverse ++ left ++ right
  termination_by left right => left.length + right.length

def mergeDown (merged : List ι) : List ι → List ι → Sorter ι (List ι)
  | x :: left, y :: right => do
    if ← less y x then mergeDown (x :: merged) left (y :: right)
    else mergeDown (y :: merged) (x :: left) right
  | left, right => return left.reverse ++ right.reverse ++ merged
  termination_by left right => left.length + right.length

def merge (left right : List ι) : Sorter ι (List ι) :=
  if left.length ≤ right.length then mergeUp [] left right else mergeDown [] left.reverse right.reverse

end Sorter

end SymbolicQuery
