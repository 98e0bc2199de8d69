import SymbolicQuery.Number.Binary64

/-! Decimal numbers with a coefficient of 96 bits and at most 28 places. The places of a number
are kept, so `1.50` is not written as `1.5`, and so is the sign of a zero; the order compares the
numbers alone. -/
namespace SymbolicQuery

structure Decimal where
  negative : Bool
  coefficient : Nat
  scale : Nat
  coefficientLt : coefficient < 2 ^ 96
  scaleLe : scale ≤ 28
  deriving DecidableEq, Repr

namespace Decimal

def zero : Decimal := ⟨false, 0, 0, by decide, by decide⟩

def isZero (d : Decimal) : Bool := d.coefficient == 0

def signed (d : Decimal) : Int := if d.negative then -(d.coefficient : Int) else d.coefficient

def inPlaces (places : Nat) (d : Decimal) : Int := d.signed * 10 ^ (places - d.scale)

def make? (negative : Bool) (coefficient scale : Nat) : Option Decimal :=
  if h : coefficient < 2 ^ 96 ∧ scale ≤ 28 then some ⟨negative, coefficient, scale, h.1, h.2⟩ else none

/-- The number `num / den * 10 ^ -scale`, rounded to as many of those places as fit. A result of
zero is positive. -/
def fit? (round : Nat → Nat → Nat) (negative : Bool) (num den scale : Nat) : Option Decimal :=
  let coefficient := round num den
  match make? (negative && coefficient != 0) coefficient scale, scale with
  | some d, _ => some d
  | none, 0 => none
  | none, scale + 1 => fit? round negative num (den * 10) scale

def nearest? : (negative : Bool) → (num den scale : Nat) → Option Decimal := fit? roundHalfEven

def stripZeros (coefficient : Nat) : Nat → Nat × Nat
  | 0 => (coefficient, 0)
  | scale + 1 =>
    if coefficient % 10 = 0 then stripZeros (coefficient / 10) scale else (coefficient, scale + 1)

theorem stripZerosLe (coefficient scale : Nat) :
    (stripZeros coefficient scale).1 ≤ coefficient ∧ (stripZeros coefficient scale).2 ≤ scale := by
  induction scale generalizing coefficient with
  | zero => simp [stripZeros]
  | succ scale ih =>
    unfold stripZeros
    split
    · have := ih (coefficient / 10)
      have := Nat.div_le_self coefficient 10
      omega
    · simp

def normalize (d : Decimal) : Decimal :=
  have h := stripZerosLe d.coefficient d.scale
  ⟨d.negative && !d.isZero, (stripZeros d.coefficient d.scale).1, (stripZeros d.coefficient d.scale).2,
    Nat.lt_of_le_of_lt h.1 d.coefficientLt, Nat.le_trans h.2 d.scaleLe⟩

def ofInt64 (n : Int64) : Decimal :=
  ⟨n.toInt < 0, n.toInt.natAbs, 0, by have := Int64.le_toInt n; have := Int64.toInt_lt n; omega, by decide⟩

def neg (d : Decimal) : Decimal := { d with negative := !d.negative }

def compare (a b : Decimal) : Ordering :=
  let places := max a.scale b.scale
  Ord.compare (a.inPlaces places) (b.inPlaces places)

def add? (a b : Decimal) : Option Decimal :=
  if a.isZero then some b
  else if b.isZero then some a
  else
    let places := max a.scale b.scale
    let sum := a.inPlaces places + b.inPlaces places
    nearest? (sum < 0) sum.natAbs 1 places

def sub? (a b : Decimal) : Option Decimal :=
  if b.isZero then some (if a.isZero then b else a) else a.add? b.neg

/-- The product. Of two coefficients of 32 bits, one whose places exceed 47 vanishes at once. -/
def mul? (a b : Decimal) : Option Decimal :=
  if a.isZero || b.isZero then some zero
  else if a.coefficient < 2 ^ 32 ∧ b.coefficient < 2 ^ 32 ∧ 47 < a.scale + b.scale then some zero
  else nearest? (a.negative != b.negative) (a.coefficient * b.coefficient) 1 (a.scale + b.scale)

/-- The quotient. One that is exact at the difference of the scales keeps it; any other is
developed as far as there is room and loses its trailing zeros. -/
def div? (a b : Decimal) : Option Decimal :=
  let negative := a.negative != b.negative
  if b.isZero then none
  else if a.isZero then some zero
  else if a.coefficient % b.coefficient = 0 then
    make? negative (a.coefficient / b.coefficient * 10 ^ (b.scale - a.scale)) (a.scale - b.scale)
  else
    (nearest? negative (a.coefficient * 10 ^ (28 + b.scale - a.scale)) b.coefficient 28).map normalize

/-- The remainder of the quotient cut toward zero, with the dividend's sign. A dividend that is
smaller than the divisor is returned as it is. -/
def rem? (a b : Decimal) : Option Decimal :=
  let places := max a.scale b.scale
  let dividend := (a.inPlaces places).natAbs
  let divisor := (b.inPlaces places).natAbs
  if b.isZero then none
  else if a.isZero || dividend == divisor then some zero
  else if dividend < divisor then some a
  else
    let rest := dividend % divisor
    make? (a.negative && rest != 0) rest places

def truncate (d : Decimal) : Int := d.signed.tdiv (10 ^ d.scale)

def whole? (d : Decimal) : Option Int :=
  if d.coefficient % 10 ^ d.scale = 0 then some d.truncate else none

/-- The floating-point number for a decimal: whole and fractional parts are converted apart, and
their sum is rounded again to the decimal's places. -/
def toBinary (d : Decimal) : Binary64 :=
  let power := 10 ^ d.scale
  let whole := Binary64.ofNat (d.coefficient / power)
  if d.scale = 0 then (if d.negative && !d.isZero then whole.neg else whole)
  else
    let unit := Binary64.ofNat power
    let fraction := (Binary64.ofNat (d.coefficient % power)).div unit
    let magnitude :=
      if fraction.isZero then whole else (((whole.add fraction).mul unit).round).div unit
    if d.negative then magnitude.neg else magnitude

def takeHalves : (places coefficient scale : Nat) → Nat × Nat
  | 0, coefficient, scale => (coefficient, scale)
  | places + 1, coefficient, scale =>
    if coefficient % 2 = 0 then takeHalves places (coefficient / 2) scale
    else if 5 * coefficient < 2 ^ 96 then takeHalves places (5 * coefficient) (scale + 1)
    else takeHalves places (coefficient / 2) scale

def dropPlaces : (places coefficient scale : Nat) → Nat × Nat
  | 0, coefficient, scale => (coefficient, scale)
  | places + 1, coefficient, scale =>
    if coefficient < 10 then (0, 0)
    else dropPlaces places (roundHalfUp coefficient 10) (scale - 1)

def dropExcess (coefficient : Nat) : Nat → Nat × Nat
  | 0 => (coefficient, 0)
  | scale + 1 =>
    if 2 ^ 52 ≤ coefficient then dropExcess (roundHalfUp coefficient 10) scale
    else (coefficient, scale + 1)

/-- The decimal for a floating-point number, of which about sixteen digits survive. -/
def ofBinary? (x : Binary64) : Option Decimal :=
  if !x.isFinite then none
  else if x.isZero then some { zero with negative := x.negative }
  else if 1074 ≤ x.shift then make? x.negative (x.significand * 2 ^ (x.shift - 1074)) 0
  else
    let (coefficient, scale) := takeHalves (1074 - x.shift) x.significand 0
    let (coefficient, scale) := dropPlaces (scale - 28) coefficient scale
    let (coefficient, scale) := dropExcess coefficient scale
    let (coefficient, scale) := stripZeros coefficient scale
    make? x.negative coefficient scale

def write (d : Decimal) : String :=
  let digits := Nat.toDigits 10 d.coefficient
  let padded := List.replicate (d.scale + 1 - digits.length) '0' ++ digits
  let whole := String.ofList (padded.take (padded.length - d.scale))
  let places := String.ofList (padded.drop (padded.length - d.scale))
  (if d.negative then "-" else "") ++ whole ++ (if d.scale = 0 then "" else "." ++ places)

/-- Reads digits with an optional sign and point. Places that there is no room for are rounded, a
half up, and zero has no sign. -/
def read? (text : String) : Option Decimal :=
  let (negative, body) := match text.toList with
    | '-' :: cs => (true, cs)
    | '+' :: cs => (false, cs)
    | cs => (false, cs)
  let (whole, rest) := body.span Char.isDigit
  let places? := match rest with
    | [] => some []
    | '.' :: places => if places.all Char.isDigit then some places else none
    | _ => none
  places?.bind fun places =>
    if whole.isEmpty && places.isEmpty then none
    else
      let value := (whole ++ places).foldl (fun n c => 10 * n + (c.toNat - '0'.toNat)) 0
      fit? roundHalfUp negative value 1 places.length

end Decimal

end SymbolicQuery
