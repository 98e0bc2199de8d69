import SymbolicQuery.Text.LetterCase
import SymbolicQuery.Text.ScriptTable

/-! Sets of characters, as patterns describe them. -/
namespace SymbolicQuery.Text

def scriptRuns : Runs String := readRuns (fun code => code) scriptRows

def isWord (c : Char) : Bool :=
  if c.toNat < 128 then c.isAlphanum || c == '_'
  else
    let category := categoryOf c.toNat
    isAlphabetic c || category.isMark || category == .nd || category == .pc ||
      c.toNat == 0x200c || c.toNat == 0x200d

def caseVariants (n : Nat) : List Nat :=
  let folded := foldOf n
  folded :: foldRuns.filterMap fun r =>
    let back := ((folded : Int) - r.offset).toNat
    if r.image? back = some folded then some back else none

inductive CharSet where
  | empty
  | range (low high : Nat)
  | category (c : Category)
  | script (code : String)
  | alphabetic | upper | lower | blank | word | cased | caseIgnorable | extending
  | union (a b : CharSet)
  | inter (a b : CharSet)
  | complement (a : CharSet)
  /-- also the characters that differ in case alone -/
  | anyCase (a : CharSet)
  deriving DecidableEq

namespace CharSet

def has (n : Nat) : CharSet → Bool
  | empty => false
  | range low high => low ≤ n && n ≤ high
  | category c => categoryOf n == c
  | script code => scriptRuns.at? n == some code
  | alphabetic => isAlphabetic (Char.ofNat n)
  | upper => isUpper (Char.ofNat n)
  | lower => isLower (Char.ofNat n)
  | blank => isBlank (Char.ofNat n)
  | word => isWord (Char.ofNat n)
  | cased => isCased (Char.ofNat n)
  | caseIgnorable => isCaseIgnorable (Char.ofNat n)
  | extending => isExtending (Char.ofNat n)
  | union a b => a.has n || b.has n
  | inter a b => a.has n && b.has n
  | complement a => !a.has n
  | anyCase a => (n :: caseVariants n).any fun v => a.has v

def isAscii : CharSet → Bool
  | empty => true
  | range _ high => high < 128
  | union a b => a.isAscii && b.isAscii
  | inter a b => a.isAscii || b.isAscii
  | anyCase a => a.isAscii
  | _ => false

def single (c : Char) : CharSet := range c.toNat c.toNat
def full : CharSet := complement empty
def diff (a b : CharSet) : CharSet := inter a (complement b)
def symmetric (a b : CharSet) : CharSet := union (diff a b) (diff b a)
def unionAll (sets : List CharSet) : CharSet := sets.foldr union empty

def ofRanges (ranges : List (Char × Char)) : CharSet :=
  unionAll (ranges.map fun r => range r.1.toNat r.2.toNat)

def ofCategories (cs : List Category) : CharSet := unionAll (cs.map category)

end CharSet

end SymbolicQuery.Text
