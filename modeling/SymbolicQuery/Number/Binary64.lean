/-! Binary floating-point numbers of 64 bits, as their sign and the 63 bits below it.
Read as a number those bits grow with the magnitude, so the order needs no unpacking, and every
finite magnitude is a whole number of units of `2 ^ -1074`: each operation below is computed
exactly on units and rounded once. -/

/- Powers of whole numbers are the core ones, also where algebra brings its own. -/
attribute [instance (high), default_instance (high + 1)] instPowNat

namespace SymbolicQuery

def roundHalfEven (num den : Nat) : Nat :=
  let low := num / den
  let rest := num % den
  if den < 2 * rest ∨ (2 * rest = den ∧ low % 2 = 1) then low + 1 else low

def roundHalfUp (num den : Nat) : Nat := (2 * num + den) / (2 * den)

structure Binary64 where
  negative : Bool
  code : Nat
  codeLt : code < 2 ^ 63
  deriving DecidableEq, Repr

namespace Binary64

def infinityCode : Nat := 2047 * 2 ^ 52

def zero : Binary64 := ⟨false, 0, by decide⟩
def infinity (negative : Bool) : Binary64 := ⟨negative, infinityCode, by decide⟩
def nan (negative : Bool) : Binary64 := ⟨negative, infinityCode + 2 ^ 51, by decide⟩

def isNaN (x : Binary64) : Bool := infinityCode < x.code
def isFinite (x : Binary64) : Bool := x.code < infinityCode
def isInfinite (x : Binary64) : Bool := x.code == infinityCode
def isZero (x : Binary64) : Bool := x.code == 0

def shift (x : Binary64) : Nat := x.code / 2 ^ 52 - 1

def significand (x : Binary64) : Nat := x.code - x.shift * 2 ^ 52

/-- The magnitude of a finite number in units of `2 ^ -1074`. -/
def units (x : Binary64) : Nat := x.significand * 2 ^ x.shift

def signedUnits (x : Binary64) : Int := if x.negative then -(x.units : Int) else x.units

def one : Nat := 2 ^ 1074

/-- The code of the magnitude nearest to `num / den` units; what exceeds the finite range is
infinite. Adding the rounded significand to its shifted place carries into the exponent by itself. -/
def codeOfUnits (num den : Nat) : Nat :=
  let places := (num / den).log2 - 52
  min infinityCode (places * 2 ^ 52 + roundHalfEven num (den * 2 ^ places))

def ofUnits (negative : Bool) (num den : Nat) : Binary64 :=
  ⟨negative, codeOfUnits num den, Nat.lt_of_le_of_lt (Nat.min_le_left _ _) (by decide)⟩

def ofRatio (negative : Bool) (num den : Nat) : Binary64 := ofUnits negative (num * one) den

def ofNat (n : Nat) : Binary64 := ofRatio false n 1

def ofInt (n : Int) : Binary64 := ofRatio (n < 0) n.natAbs 1

def neg (x : Binary64) : Binary64 := { x with negative := !x.negative }

def onNumbers (x y : Binary64) (result : Binary64) : Binary64 :=
  if x.isNaN then x else if y.isNaN then y else result

def add (x y : Binary64) : Binary64 :=
  onNumbers x y <|
    if x.isInfinite then if y.isInfinite && x.negative != y.negative then nan true else x
    else if y.isInfinite then y
    else
      let sum := x.signedUnits + y.signedUnits
      ofUnits (if sum = 0 then x.negative && y.negative else sum < 0) sum.natAbs 1

def sub (x y : Binary64) : Binary64 :=
  onNumbers x y (x.add y.neg)

def mul (x y : Binary64) : Binary64 :=
  let negative := x.negative != y.negative
  onNumbers x y <|
    if x.isInfinite || y.isInfinite then
      if x.isZero || y.isZero then nan true else infinity negative
    else ofUnits negative (x.units * y.units) one

def div (x y : Binary64) : Binary64 :=
  let negative := x.negative != y.negative
  onNumbers x y <|
    if x.isInfinite then if y.isInfinite then nan true else infinity negative
    else if y.isInfinite then ⟨negative, 0, by decide⟩
    else if y.isZero then if x.isZero then nan true else infinity negative
    else ofUnits negative (x.units * one) y.units

def rem (x y : Binary64) : Binary64 :=
  onNumbers x y <|
    if x.isInfinite || y.isZero then nan true
    else if y.isInfinite then x
    else ofUnits x.negative (x.units % y.units) 1

def compare (x y : Binary64) : Option Ordering :=
  if x.isNaN || y.isNaN then none
  else
    let place (z : Binary64) : Int := if z.negative then -(z.code : Int) else z.code
    some (Ord.compare (place x) (place y))

def truncate? (x : Binary64) : Option Int :=
  if x.isFinite then
    let whole : Int := x.units / one
    some (if x.negative then -whole else whole)
  else none

def whole? (x : Binary64) : Option Int :=
  if x.isFinite && x.units % one == 0 then x.truncate? else none

def round (x : Binary64) : Binary64 :=
  if x.isFinite then ofRatio x.negative (roundHalfUp x.units one) 1 else x

end Binary64

end SymbolicQuery
