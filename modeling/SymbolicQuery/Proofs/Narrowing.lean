import Mathlib.Data.Rat.Floor
import SymbolicQuery.Proofs.Calculating
import SymbolicQuery.Proofs.Keying

/-! Conversion of numbers to whole ones. What a number is cut to depends neither on the kind that carries it nor on
whether the conversion is checked. Where the result has no room in 64 bits, though, there is one only without a check,
and of floating-point numbers alone. -/
namespace SymbolicQuery

def cut (q : ℚ) : Int := if 0 ≤ q then ⌊q⌋ else ⌈q⌉

theorem cutDiv (z : Int) {n : Nat} (positive : 0 < n) : cut (z / n) = z.tdiv n := by
  have above : (0 : ℚ) < n := Nat.cast_pos.mpr positive
  have sign : 0 ≤ (z / n : ℚ) ↔ 0 ≤ z := by rw [le_div_iff₀ above, zero_mul, Int.cast_nonneg_iff]
  unfold cut
  by_cases plus : 0 ≤ z
  · rw [if_pos (sign.mpr plus), Rat.floor_intCast_div_natCast, Int.tdiv_eq_ediv_of_nonneg plus]
  · rw [if_neg (plus ∘ sign.mp), Rat.ceil_intCast_div_natCast, ← Int.tdiv_eq_ediv_of_nonneg (by omega), Int.neg_tdiv,
      Int.neg_neg]

theorem cutWhole (z : Int) : cut z = z := by
  unfold cut
  rw [Int.floor_intCast, Int.ceil_intCast, ite_self]

namespace Binary64

def number? (x : Binary64) : Option ℚ := if x.isFinite then some (x.signedUnits / one) else none

theorem truncateCut (x : Binary64) : x.truncate? = x.number?.map cut := by
  have signed : x.signedUnits.tdiv one =
      if x.negative then -((x.units / one : Nat) : Int) else (x.units / one : Nat) := by
    unfold signedUnits
    split
    · rw [Int.neg_tdiv, Int.ofNat_tdiv]
    · exact (Int.ofNat_tdiv _ _).symm
  unfold truncate? number?
  split
  · rw [Option.map_some, cutDiv _ onePos, signed]
    rfl
  · rfl

end Binary64

namespace Decimal

def number (d : Decimal) : ℚ := d.signed / (10 ^ d.scale : Nat)

theorem truncateCut (d : Decimal) : d.truncate = cut d.number := by
  unfold number
  rw [cutDiv _ (Nat.pow_pos (by decide))]
  rfl

end Decimal

namespace Value

def number? : Value → Option ℚ
  | .integer n => some n.toInt
  | .float x => x.number?
  | .decimal d => some d.number
  | _ => none

def narrowed? (v : Value) : Option Int64 := v.number?.bind fun q => int64? (cut q)

/-- What the conversion of a number to a whole one does. If the number has room, or if it is a decimal, it makes no
difference whether that is checked. -/
inductive Narrowing (v : Value) : Prop where
  | exact {n} (room : v.narrowed? = some n) (done : ∀ checked, v.convert checked .int = .ok (.integer n))
  | saturated {e w} (roomless : v.narrowed? = none) (other : ∀ d, v ≠ .decimal d)
      (refused : v.convert true .int = .error e) (kind : e.kind = .overflow) (taken : v.convert false .int = .ok w)
  | refused {d e} (roomless : v.narrowed? = none) (decimal : v = .decimal d)
      (refused : ∀ checked, v.convert checked .int = .error e) (kind : e.kind = .overflow)

variable {v : Value} {n : Int64}

theorem narrowedIff : v.narrowed? = some n ↔ ∃ q, v.number? = some q ∧ n.toInt = cut q := by
  unfold narrowed?
  simp only [Option.bind_eq_some_iff, int64Eq, eq_comm (a := n.toInt)]

theorem narrowedFits : (∃ n, v.narrowed? = some n) ↔ ∃ q, v.number? = some q ∧ Fits (cut q) := by
  simp only [narrowedIff, fitsIff, int64Eq, eq_comm (a := cut _)]
  exact ⟨fun ⟨n, q, known, same⟩ => ⟨q, known, n, same⟩, fun ⟨q, known, n, same⟩ => ⟨n, q, known, same⟩⟩

theorem narrowedInteger (n : Int64) : (integer n).narrowed? = some n :=
  narrowedIff.mpr ⟨_, rfl, (cutWhole _).symm⟩

theorem narrowedFloat (x : Binary64) : (float x).narrowed? = x.truncate?.bind int64? := by
  rw [Binary64.truncateCut, Option.bind_map]
  rfl

theorem narrowedDecimal (d : Decimal) : (decimal d).narrowed? = int64? d.truncate := by
  rw [Decimal.truncateCut]
  rfl

theorem floatNarrowing (x : Binary64) : Narrowing (float x) := by
  have same := narrowedFloat x
  cases room : x.truncate?.bind int64? with
  | some n => exact .exact (same.trans room) fun checked => by simp only [convert, room]
  | none =>
    have taken : (float x).convert false .int = .ok (.integer (saturate x)) := by
      simp only [convert, room, Bool.false_eq_true, if_false]
    have refused : (float x).convert true .int =
        .error (.overflow ((float x).text ++ " does not fit in " ++ Ty.int.text)) := by
      simp only [convert, room, if_true]
    exact .saturated (same.trans room) nofun refused rfl taken

theorem decimalNarrowing (d : Decimal) : Narrowing (decimal d) := by
  have same := narrowedDecimal d
  cases room : int64? d.truncate with
  | some n => exact .exact (same.trans room) fun checked => by simp only [convert, room, Option.map_some]
  | none =>
    have refused (checked : Bool) : (decimal d).convert checked .int =
        .error (.overflow ((decimal d).text ++ " does not fit in " ++ Ty.int.text)) := by
      simp only [convert, room, Option.map_none]
    exact .refused (same.trans room) rfl refused rfl

theorem narrowing (numeric : v.asFloat? ≠ none) : Narrowing v := by
  rcases numberCases v with other | ⟨n, rfl⟩ | ⟨x, rfl⟩ | ⟨d, rfl⟩
  · exact (numeric other).elim
  · exact .exact (narrowedInteger n) fun _ => rfl
  · exact floatNarrowing x
  · exact decimalNarrowing d

/-- A checked conversion of a number to a whole one has a result exactly if the number is finite and has 64 bits when it
is cut, and the result is what it is cut to. An unchecked one has the same result there, and some result everywhere but
at decimals that do not have these bits. Either fails with an overflow only. -/
theorem narrows (numeric : v.asFloat? ≠ none) :
    ((∃ w, v.convert true .int = .ok w) ↔ ∃ q, v.number? = some q ∧ Fits (cut q)) ∧
      (∀ w, v.convert true .int = .ok w → ∃ q n, v.number? = some q ∧ w = .integer n ∧ n.toInt = cut q) ∧
      (∀ w, v.convert true .int = .ok w → v.convert false .int = .ok w) ∧
      ((∃ w, v.convert false .int = .ok w) ↔ ∀ d, v = .decimal d → Fits (cut d.number)) ∧
      ∀ checked e, v.convert checked .int = .error e → e.kind = .overflow := by
  have unfitting (roomless : v.narrowed? = none) : ¬ ∃ q, v.number? = some q ∧ Fits (cut q) := fun fits => by
    obtain ⟨n, room⟩ := narrowedFits.mpr fits
    cases roomless.symm.trans room
  cases narrowing numeric with
  | @exact n room done =>
    obtain ⟨q, known, same⟩ := narrowedIff.mp room
    have fits : Fits (cut q) := same ▸ fits64 n
    refine ⟨iff_of_true ⟨_, done true⟩ ⟨q, known, fits⟩, ?_, ?_, iff_of_true ⟨_, done false⟩ ?_, ?_⟩
    · intro w result
      cases (done true).symm.trans result
      exact ⟨q, n, known, rfl, same⟩
    · intro w result
      cases (done true).symm.trans result
      exact done false
    · rintro d rfl
      cases known
      exact fits
    · intro checked e failed
      cases (done checked).symm.trans failed
  | @saturated e w roomless other refused kind taken =>
    have failing (w) : v.convert true .int ≠ .ok w := fun result => by cases refused.symm.trans result
    refine ⟨iff_of_false (fun ⟨w, result⟩ => failing w result) (unfitting roomless),
      fun w result => (failing w result).elim, fun w result => (failing w result).elim,
      iff_of_true ⟨w, taken⟩ fun d same => (other d same).elim, ?_⟩
    intro checked f failed
    cases checked with
    | true =>
      cases refused.symm.trans failed
      exact kind
    | false => cases taken.symm.trans failed
  | @refused d e roomless decimal refused kind =>
    have failing (checked w) : v.convert checked .int ≠ .ok w := fun result => by
      cases (refused checked).symm.trans result
    refine ⟨iff_of_false (fun ⟨w, result⟩ => failing _ w result) (unfitting roomless),
      fun w result => (failing _ w result).elim, fun w result => (failing _ w result).elim,
      iff_of_false (fun ⟨w, result⟩ => failing _ w result) fun fits => ?_, ?_⟩
    · exact unfitting roomless ⟨d.number, decimal ▸ rfl, fits d decimal⟩
    · intro checked f failed
      cases (refused checked).symm.trans failed
      exact kind

/- The decimal -9223372036854775808.9 is cut to the least whole number; two to the 63rd as a floating-point number is
one too large. -/
theorem narrowsOfEdges :
    let low : Decimal := ⟨true, 92233720368547758089, 1, by decide, by decide⟩
    let high := Binary64.ofInt (2 ^ 63)
    (Value.decimal low).asFloat? ≠ none ∧ (Value.float high).asFloat? ≠ none ∧
      (∃ w, (Value.decimal low).convert true .int = .ok w) ∧ (¬ ∃ w, (Value.float high).convert true .int = .ok w) ∧
      ∃ w, (Value.float high).convert false .int = .ok w := by
  intro low high
  have cutLow : Fits (cut low.number) := by
    rw [← Decimal.truncateCut]
    decide
  have numbers : (Value.decimal low).asFloat? ≠ none ∧ (Value.float high).asFloat? ≠ none :=
    ⟨Option.some_ne_none _, Option.some_ne_none _⟩
  refine ⟨numbers.1, numbers.2, (narrows numbers.1).1.mpr ⟨_, rfl, cutLow⟩, fun done => ?_,
    (narrows numbers.2).2.2.2.1.mpr nofun⟩
  obtain ⟨q, known, fits⟩ := (narrows numbers.2).1.mp done
  have cutHigh : high.number?.map cut = some (2 ^ 63) := by
    rw [← Binary64.truncateCut]
    decide +kernel
  rw [show high.number? = some q from known, Option.map_some, Option.some.injEq] at cutHigh
  exact absurd (cutHigh ▸ fits) (by decide)

/- Two to the 63rd: as a decimal it is refused without a check as well, as a floating-point number it becomes the
largest whole number. -/
theorem decimalRefused :
    let d : Decimal := ⟨false, 2 ^ 63, 0, by decide, by decide⟩
    (Value.decimal d).asFloat? ≠ none ∧ (¬ ∃ w, (Value.decimal d).convert false .int = .ok w) ∧
      (Value.decimal d).convert false .int = .error (.overflow "9223372036854775808m does not fit in int") ∧
      (Value.float (Binary64.ofInt (2 ^ 63))).convert false .int = .ok (.integer Int64.maxValue) := by
  intro d
  have refused : (Value.decimal d).convert false .int =
      .error (.overflow "9223372036854775808m does not fit in int") := by
    decide +kernel
  refine ⟨Option.some_ne_none _, fun ⟨w, done⟩ => ?_, refused, by decide +kernel⟩
  cases refused.symm.trans done

end Value

end SymbolicQuery
