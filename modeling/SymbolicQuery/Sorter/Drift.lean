import SymbolicQuery.Sorter

/-! The sort of lists of any length. Lists of up to twenty items are sorted by insertion. In a longer one, runs that are in
order already are found, and runs of other items put between them, which quicksort sorts; neighbouring runs are merged
in a nearly balanced tree. -/
namespace SymbolicQuery.Sorter

variable {ι : Type}

def median (a b c : ι) : Sorter ι ι := do
  let first ← less a b
  let second ← less a c
  if first = second then return if (← less b c) = first then b else c
  else return a

def pivot (items : List ι) : Sorter ι ι :=
  let n := items.length / 8
  if 8 ≤ n then do
    let a ← pivot (items.take n)
    let b ← pivot ((items.drop (4 * n)).take n)
    let c ← pivot ((items.drop (7 * n)).take n)
    median a b c
  else
    match items, items.drop (4 * n), items.drop (7 * n) with
    | a :: _, b :: _, c :: _ => median a b c
    | _, _, _ => stopped
  termination_by items.length
  decreasing_by all_goals simp_wf; omega

def split (goesLeft : ι → Sorter ι Bool) (left right : List ι) : List ι → Sorter ι (List ι × List ι)
  | [] => return (left.reverse, right.reverse)
  | x :: rest => do
    if ← goesLeft x then split goesLeft (x :: left) right rest else split goesLeft left (x :: right) rest

def repeats (p : ι) : Option ι → Sorter ι Bool
  | none => return false
  | some earlier => return !(← less earlier p)

section Quick

variable [DecidableEq ι]

def splitLess (p : ι) (items : List ι) : Sorter ι (List ι × List ι) :=
  split (fun x => if x = p then return false else less x p) [] [] items

def splitEqual (p : ι) (items : List ι) : Sorter ι (List ι × List ι) :=
  split (fun x => if x = p then return true else return !(← less p x)) [] [] items

def divide (p : ι) (earlier : Option ι) (items : List ι) : Sorter ι (List ι × List ι) := do
  if ← repeats p earlier then return ([], items) else splitLess p items

/-- Sorts by a pivot. Where no item is less than the pivot, its equals need no more sorting. -/
def quicksort (balanced : List ι → Sorter ι (List ι)) : Nat → Option ι → List ι → Sorter ι (List ι)
  | 0, _, items => if items.length ≤ 32 then sortShort items else balanced items
  | limit + 1, earlier, items => do
    if items.length ≤ 32 then sortShort items
    else
      let p ← pivot items
      let (left, right) ← divide p earlier items
      if left.isEmpty then
        let (equal, greater) ← splitEqual p items
        return equal ++ (← quicksort balanced limit none greater)
      else
        let right ← quicksort balanced limit (some p) right
        return (← quicksort balanced limit earlier left) ++ right

end Quick

structure Run (ι : Type) where
  items : List ι
  sorted : Bool

def runOn (descending : Bool) (last : ι) (taken : List ι) : List ι → Sorter ι (List ι × List ι)
  | [] => return (last :: taken, [])
  | x :: rest => do
    if (← less x last) = descending then runOn descending x (last :: taken) rest
    else return (last :: taken, x :: rest)

def existingRun : List ι → Sorter ι (List ι × List ι)
  | x :: y :: rest => do
    let descending ← less y x
    let (taken, rest) ← runOn descending y [x] rest
    return (if descending then taken else taken.reverse, rest)
  | items => return (items, [])

def longRun (good : Nat) (items : List ι) : Sorter ι (List ι × List ι) :=
  if good ≤ items.length then existingRun items else return ([], items)

/-- The next run. If there is none of a good length, it is made of some items, which are sorted now or later. -/
def nextRun (good : Nat) (eager : Bool) (items : List ι) : Sorter ι (Run ι × List ι) := do
  let (run, rest) ← longRun good items
  if good ≤ run.length then return (⟨run, true⟩, rest)
  else if eager then return (⟨← sortShort (items.take 32), true⟩, items.drop 32)
  else return (⟨items.take good, false⟩, items.drop good)

section Drift

variable (quick : List ι → Sorter ι (List ι)) (room : Nat)

def Run.finish (run : Run ι) : Sorter ι (List ι) := if run.sorted then return run.items else quick run.items

def join (left right : Run ι) : Sorter ι (Run ι) := do
  if left.items.length + right.items.length ≤ room ∧ ¬ left.sorted ∧ ¬ right.sorted then
    return ⟨left.items ++ right.items, false⟩
  else
    let first ← left.finish quick
    let second ← right.finish quick
    return ⟨← merge first second, true⟩

/-- Joins a run with those before it that stand as deep in the tree as the depth, or deeper. The first of all runs has no
items and stays. -/
def collapse (depth : Nat) : List (Run ι × Nat) → Run ι → Sorter ι (List (Run ι × Nat) × Run ι)
  | (left, d) :: below :: stack, run => do
    if depth ≤ d then collapse depth (below :: stack) (← join quick room left run)
    else return ((left, d) :: below :: stack, run)
  | stack, run => return (stack, run)

def leadingZeros (n : Nat) : Nat := if n = 0 then 64 else 63 - n.log2

/-- How deep two neighbouring runs are to be merged: by where the middles of the two stand in the whole. -/
def treeDepth (whole left mid right : Nat) : Nat :=
  let scale := (2 ^ 62 + whole - 1) / whole
  leadingZeros (scale * (left + mid) ^^^ scale * (mid + right))

/-- Takes runs from the items that are not yet scanned. Each round takes one item at least. -/
def drive (whole good : Nat) (eager : Bool) :
    Nat → List (Run ι × Nat) → Run ι → Nat → List ι → Sorter ι (List ι)
  | _, stack, run, _, [] => do
    let (_, all) ← collapse quick room 0 stack run
    all.finish quick
  | 0, _, _, _, _ :: _ => stopped
  | rounds + 1, stack, run, scanned, items => do
    let (next, rest) ← nextRun good eager items
    let depth := treeDepth whole (scanned - run.items.length) scanned (scanned + next.items.length)
    let (stack, run) ← collapse quick room depth stack run
    drive whole good eager rounds ((run, depth) :: stack) next (scanned + next.items.length) rest

end Drift

def roughRoot (n : Nat) : Nat :=
  let shift := (1 + n.log2) / 2
  (2 ^ shift + n / 2 ^ shift) / 2

/-- Sorts by runs. There is room for eight megabytes of items at once, and for half of them always. -/
def drift (quick : List ι → Sorter ι (List ι)) (eager : Bool) (items : List ι) : Sorter ι (List ι) :=
  let n := items.length
  let good := if n ≤ 4096 then min (n - n / 2) 64 else roughRoot n
  let room := max (max (n - n / 2) (min n 83333)) 48
  drive quick room n good eager n [] ⟨[], true⟩ 0 items

variable [DecidableEq ι]

def quick (items : List ι) : Sorter ι (List ι) := quicksort (drift done true) (2 * items.length.log2) none items

def sort (items : List ι) : Sorter ι (List ι) :=
  if items.length ≤ 20 then insertAll [] items else drift quick (items.length ≤ 64) items

end SymbolicQuery.Sorter
