import SymbolicQuery.Number.Binary64

/-! Decimal text of floating-point numbers. Reading rounds the exact decimal once; writing takes
the fewest digits that read back to the same number, and of two such decimals the nearer. What a
format decides for itself is one `Layout` record. -/
namespace SymbolicQuery.Binary64

structure Scientific where
  digits : Nat
  exponent : Int
  deriving DecidableEq, Repr

namespace Scientific

def lead (d : Scientific) : Int := d.exponent + (Nat.toDigits 10 d.digits).length - 1

def strip (limit : Nat) (d : Scientific) : Scientific :=
  match limit with
  | 0 => d
  | limit + 1 =>
    if d.digits % 10 = 0 ∧ d.digits ≠ 0 then strip limit ⟨d.digits / 10, d.exponent + 1⟩ else d

def toBinary (negative : Bool) (d : Scientific) : Binary64 :=
  ofRatio negative (d.digits * 10 ^ d.exponent.toNat) (10 ^ (-d.exponent).toNat)

end Scientific

/-- Where an exact half between two shortest decimals goes. -/
inductive Tie where
  | up | even
  deriving DecidableEq, Repr

/-- The ends of the reals that round to `x`, in quarters of its last place. Below a power of two
the neighbour is half as far away. -/
def lowQuarters (x : Binary64) : Nat :=
  if x.significand = 2 ^ 52 ∧ x.shift ≠ 0 then 4 * x.significand - 1 else 4 * x.significand - 2

def highQuarters (x : Binary64) : Nat := 4 * x.significand + 2

def decimalPlace (num den : Nat) : Int :=
  if den ≤ num then (Nat.toDigits 10 (num / den)).length
  else 1 - (Nat.toDigits 10 ((den + num - 1) / num - 1)).length

/-- The grid `10 ^ exponent` has a point that rounds to `x`: the nearer of the two beside `x`. -/
def onGrid (tie : Tie) (x : Binary64) (exponent : Int) : Option Scientific :=
  let quarter := 2 ^ x.shift * 10 ^ (-exponent).toNat
  let den := 4 * one * 10 ^ exponent.toNat
  let value := 4 * x.significand * quarter
  let inside (digits : Nat) : Bool :=
    let low := x.lowQuarters * quarter
    let high := x.highQuarters * quarter
    let point := digits * den
    if x.significand % 2 = 0 then low ≤ point && point ≤ high else low < point && point < high
  let below := value / den
  let above := below + 1
  let rest := value % den
  if inside below && below != 0 then
    if inside above then
      if 2 * rest < den then some ⟨below, exponent⟩
      else if den < 2 * rest then some ⟨above, exponent⟩
      else if tie = .up || below % 2 = 1 then some ⟨above, exponent⟩
      else some ⟨below, exponent⟩
    else some ⟨below, exponent⟩
  else if inside above then some ⟨above, exponent⟩
  else none

/-- The shortest decimal of a finite number that is not zero: the first grid, from one digit to
seventeen, with a point that reads back. -/
def shortest (tie : Tie) (x : Binary64) : Scientific :=
  let place := decimalPlace x.units one
  match (List.range 17).findSome? fun (n : Nat) => onGrid tie x (place - n - 1) with
  | some d => d.strip 17
  | none => ⟨x.units * 5 ^ 1074, -1074⟩

structure Layout where
  /-- leading powers of ten from `plainFrom` on, and below `plainBelow`, are written positionally -/
  plainFrom : Int
  plainBelow : Int
  expPlus : Bool
  tie : Tie

/-- Values shown to a reader: plain from `0.0001` and below `1e16`. -/
def display : Layout where
  plainFrom := -4
  plainBelow := 16
  expPlus := false
  tie := .up

/-- Values in a data file: plain from `0.00001` and below `1e+16`. -/
def exchange : Layout where
  plainFrom := -5
  plainBelow := 16
  expPlus := true
  tie := .even

def Scientific.plain (d : Scientific) : String :=
  let digits := Nat.toDigits 10 d.digits
  if 0 ≤ d.exponent then
    String.ofList (digits ++ List.replicate d.exponent.toNat '0') ++ ".0"
  else
    let places := (-d.exponent).toNat
    let padded := List.replicate (places + 1 - digits.length) '0' ++ digits
    String.ofList (padded.take (padded.length - places)) ++ "." ++
      String.ofList (padded.drop (padded.length - places))

def Scientific.scientific (plus : Bool) (d : Scientific) : String :=
  let mantissa := match Nat.toDigits 10 d.digits with
    | [] => ""
    | [digit] => digit.toString
    | digit :: rest => digit.toString ++ "." ++ String.ofList rest
  let sign := if d.lead < 0 then "-" else if plus then "+" else ""
  mantissa ++ "e" ++ sign ++ toString d.lead.natAbs

def write (layout : Layout) (x : Binary64) : String :=
  if x.isNaN then "NaN"
  else
    (if x.negative then "-" else "") ++
      if x.isInfinite then "inf"
      else if x.isZero then "0.0"
      else
        let d := x.shortest layout.tie
        if layout.plainFrom ≤ d.lead ∧ d.lead < layout.plainBelow then d.plain
        else d.scientific layout.expPlus

def digitsValue (digits : List Char) : Nat :=
  digits.foldl (fun n c => 10 * n + (c.toNat - '0'.toNat)) 0

def spanDigits (cs : List Char) : List Char × List Char := cs.span Char.isDigit

def readExponent? : List Char → Option Int
  | [] => some 0
  | c :: rest =>
    if c = 'e' ∨ c = 'E' then
      let (negative, digits) := match rest with
        | '-' :: ds => (true, ds)
        | '+' :: ds => (false, ds)
        | ds => (false, ds)
      if digits.isEmpty || !digits.all Char.isDigit then none
      else some (if negative then -(digitsValue digits : Int) else digitsValue digits)
    else none

def readDecimal? (cs : List Char) : Option Scientific :=
  let (whole, rest) := spanDigits cs
  let (places, rest) := match rest with
    | '.' :: rest => spanDigits rest
    | rest => ([], rest)
  if whole.isEmpty && places.isEmpty then none
  else (readExponent? rest).map fun e => ⟨digitsValue (whole ++ places), e - places.length⟩

def read? (text : String) : Option Binary64 :=
  let (negative, body) := match text.toList with
    | '-' :: cs => (true, cs)
    | '+' :: cs => (false, cs)
    | cs => (false, cs)
  let name := String.ofList (body.map Char.toLower)
  if name = "nan" then some (nan negative)
  else if name = "inf" ∨ name = "infinity" then some (infinity negative)
  else (readDecimal? body).map fun d =>
    if d.digits = 0 then ⟨negative, 0, zero.codeLt⟩
    else if 400 < d.lead then infinity negative
    else if d.lead < -400 then ⟨negative, 0, zero.codeLt⟩
    else d.toBinary negative

end SymbolicQuery.Binary64
