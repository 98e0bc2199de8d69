import SymbolicQuery.Text.CategoryTable
import SymbolicQuery.Text.PropertyTable

/-! Classes of characters. The general category of a code point decides most of them; the rest
is the ranges that a property adds. Characters below 128 are answered without a table. -/
namespace SymbolicQuery.Text

inductive Category where
  | lu | ll | lt | lm | lo | mn | mc | me | nd | nl | no
  | pc | pd | ps | pe | pi | pf | po | sm | sc | sk | so
  | zs | zl | zp | cc | cf | cs | co | cn
  deriving DecidableEq, Repr

namespace Category

def all : List (String × Category) :=
  [("Lu", lu), ("Ll", ll), ("Lt", lt), ("Lm", lm), ("Lo", lo), ("Mn", mn), ("Mc", mc), ("Me", me),
   ("Nd", nd), ("Nl", nl), ("No", no), ("Pc", pc), ("Pd", pd), ("Ps", ps), ("Pe", pe), ("Pi", pi),
   ("Pf", pf), ("Po", po), ("Sm", sm), ("Sc", sc), ("Sk", sk), ("So", so), ("Zs", zs), ("Zl", zl),
   ("Zp", zp), ("Cc", cc), ("Cf", cf), ("Cs", cs), ("Co", co), ("Cn", cn)]

def ofCode (code : String) : Category := ((all.find? (·.1 == code)).map (·.2)).getD cn

def isLetter (c : Category) : Bool := c matches lu | ll | lt | lm | lo
def isMark (c : Category) : Bool := c matches mn | mc | me
def isNumber (c : Category) : Bool := c matches nd | nl | no

end Category

abbrev Runs (α : Type) := Array (Nat × α)

def readRuns {α : Type} (label : String → α) (rows : List String) : Runs α :=
  let close (runs : Runs α) (start : Nat) (letters : List Char) : Runs α :=
    if letters.isEmpty then runs else runs.push (start, label (String.ofList letters.reverse))
  let rec go (runs : Runs α) (start length : Nat) (letters : List Char) : List Char → Runs α
    | [] => close runs start letters
    | c :: cs =>
      if c.isDigit then go runs start (10 * length + (c.toNat - '0'.toNat)) letters cs
      else if length = 0 then go runs start 0 (c :: letters) cs
      else go (close runs start letters) (start + length) 0 [c] cs
  go #[] 0 0 [] (rows.flatMap String.toList)

def Runs.at? {α : Type} (runs : Runs α) (n : Nat) : Option α :=
  let rec go : (steps low high : Nat) → Option α
    | 0, low, _ => (runs[low]?).map (·.2)
    | steps + 1, low, high =>
      if high ≤ low + 1 then (runs[low]?).map (·.2)
      else
        let middle := (low + high) / 2
        if ((runs[middle]?).map (·.1)).getD 0 ≤ n then go steps middle high else go steps low middle
  go (runs.size.log2 + 2) 0 runs.size

def categoryRuns : Runs Category := readRuns Category.ofCode categoryRows

def categoryOf (n : Nat) : Category := (categoryRuns.at? n).getD .cn

def within (ranges : List (Nat × Nat)) (n : Nat) : Bool := ranges.any fun r => r.1 ≤ n && n ≤ r.2

def isAlphabetic (c : Char) : Bool :=
  if c.toNat < 128 then c.isAlpha
  else
    let category := categoryOf c.toNat
    category.isLetter || category == .nl || within otherAlphabetic c.toNat

def isNumeric (c : Char) : Bool :=
  if c.toNat < 128 then c.isDigit else (categoryOf c.toNat).isNumber

def isAlphanumeric (c : Char) : Bool := isAlphabetic c || isNumeric c

def isBlank (c : Char) : Bool :=
  let n := c.toNat
  (9 ≤ n && n ≤ 13) || n == 0x20 || n == 0x85 || n == 0xa0 || n == 0x1680 ||
    (0x2000 ≤ n && n ≤ 0x200a) || n == 0x2028 || n == 0x2029 || n == 0x202f || n == 0x205f || n == 0x3000

def isUpper (c : Char) : Bool :=
  if c.toNat < 128 then c.isUpper else categoryOf c.toNat == .lu || within otherUpper c.toNat

def isLower (c : Char) : Bool :=
  if c.toNat < 128 then c.isLower else categoryOf c.toNat == .ll || within otherLower c.toNat

def isCased (c : Char) : Bool := isUpper c || isLower c || categoryOf c.toNat == .lt

def isCaseIgnorable (c : Char) : Bool :=
  categoryOf c.toNat matches .mn | .me | .cf | .lm | .sk || within otherCaseIgnorable c.toNat

def isExtending (c : Char) : Bool :=
  if c.toNat < 128 then false
  else categoryOf c.toNat matches .mn | .me || within otherExtending c.toNat

def isPrintable (c : Char) : Bool :=
  if c.toNat < 128 then 0x20 ≤ c.toNat && c.toNat ≠ 0x7f
  else !(categoryOf c.toNat matches .zs | .zl | .zp | .cc | .cf | .cs | .co | .cn)

def hexadecimal (n : Nat) : String := String.ofList (Nat.toDigits 16 n)

def trim (s : String) : String :=
  String.ofList ((s.toList.dropWhile isBlank).reverse.dropWhile isBlank).reverse

end SymbolicQuery.Text
