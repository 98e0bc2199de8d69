import SymbolicQuery.Proofs.Calculating
import SymbolicQuery.Proofs.Places

/-! Decimal arithmetic on whole numbers. Sums, differences, products, remainders and whole quotients that have 64 bits are
exact in decimals, so their floating-point numbers are those nearest to the exact results. -/
namespace SymbolicQuery

namespace Decimal

variable {a b d : Decimal} {z : Int}

theorem noPlaces (d : Decimal) : d.inPlaces 0 = d.signed := by
  rw [inPlaces, Nat.zero_sub, Int.pow_zero, Int.mul_one]

theorem negSigned (d : Decimal) : d.neg.signed = -d.signed := by
  unfold signed neg
  cases d.negative <;> simp

theorem zeroSigned : d.isZero = true ↔ d.signed = 0 := by
  rw [isZero, beq_iff_eq, ← signedSize]
  omega

theorem belowZero (below : d.signed < 0) : d.negative = true := by
  unfold signed at below
  split at below
  · assumption
  · omega

theorem aboveZero (above : 0 < d.signed) : d.negative = false := by
  unfold signed at above
  split at above
  · omega
  · rename_i plus
    exact Bool.eq_false_iff.mpr plus

theorem signsDiffer (below : a.signed * b.signed < 0) : (a.negative != b.negative) = true := by
  rcases Int.mul_neg_iff.mp below with ⟨first, second⟩ | ⟨first, second⟩
  · rw [aboveZero first, belowZero second]
    rfl
  · rw [belowZero first, aboveZero second]
    rfl

theorem signsAgree (above : 0 < a.signed * b.signed) : (a.negative != b.negative) = false := by
  rcases Int.mul_pos_iff.mp above with ⟨first, second⟩ | ⟨first, second⟩
  · rw [aboveZero first, aboveZero second]
    rfl
  · rw [belowZero first, belowZero second]
    rfl

theorem wholePlain (plain : d.scale = 0) : d.whole? = some d.signed := by
  rw [wholeSigned, plain, Int.pow_zero, Int.mul_one]

theorem makePlain {negative : Bool} {c : Nat} (small : c < 2 ^ 96) (size : c = z.natAbs)
    (below : z < 0 → negative = true) (above : 0 < z → negative = false) :
    ∃ d, make? negative c 0 = some d ∧ d.whole? = some z := by
  refine ⟨⟨negative, c, 0, small, by decide⟩, dif_pos ⟨small, by decide⟩, ?_⟩
  rw [wholePlain rfl, signed, Option.some.injEq]
  cases negative <;> simp at below above ⊢ <;> omega

theorem nearestPlain {negative : Bool} {c : Nat} (small : c < 2 ^ 96) (size : c = z.natAbs)
    (below : z < 0 → negative = true) (above : 0 < z → negative = false) :
    ∃ d, nearest? negative c 1 0 = some d ∧ d.whole? = some z := by
  have rounded : roundHalfEven c 1 = c := by
    rw [← Nat.mul_one c, roundExact Nat.one_pos, Nat.mul_one]
  obtain ⟨d, made, whole⟩ : ∃ d, make? (negative && c != 0) c 0 = some d ∧ d.whole? = some z := by
    refine makePlain small size (fun less => ?_) fun more => by rw [above more, Bool.false_and]
    rw [below less, Bool.true_and, bne_iff_ne]
    omega
  refine ⟨d, ?_, whole⟩
  unfold nearest? fit?
  simp only [rounded, made]

section Operations

variable (left : a.scale = 0) (right : b.scale = 0)

include left right

theorem addPlain (room : (a.signed + b.signed).natAbs < 2 ^ 96) :
    ∃ d, a.add? b = some d ∧ d.whole? = some (a.signed + b.signed) := by
  unfold add?
  by_cases zero : a.isZero = true
  · refine ⟨b, if_pos zero, ?_⟩
    rw [wholePlain right, zeroSigned.mp zero, Int.zero_add]
  rw [if_neg zero]
  by_cases zero' : b.isZero = true
  · refine ⟨a, if_pos zero', ?_⟩
    rw [wholePlain left, zeroSigned.mp zero', Int.add_zero]
  rw [if_neg zero', left, right]
  simp only [Nat.max_self, noPlaces]
  exact nearestPlain room rfl decide_eq_true fun more => decide_eq_false (Int.not_lt.mpr (Int.le_of_lt more))

theorem subPlain (room : (a.signed - b.signed).natAbs < 2 ^ 96) :
    ∃ d, a.sub? b = some d ∧ d.whole? = some (a.signed - b.signed) := by
  unfold sub?
  by_cases zero : b.isZero = true
  · rw [if_pos zero, zeroSigned.mp zero, Int.sub_zero]
    split
    · rename_i both
      refine ⟨b, rfl, ?_⟩
      rw [wholePlain right, zeroSigned.mp zero, zeroSigned.mp both]
    · exact ⟨a, rfl, wholePlain left⟩
  · have sum := addPlain (b := b.neg) left right
    rw [negSigned] at sum
    rw [if_neg zero]
    exact sum room

theorem mulPlain (room : (a.signed * b.signed).natAbs < 2 ^ 96) :
    ∃ d, a.mul? b = some d ∧ d.whole? = some (a.signed * b.signed) := by
  unfold mul?
  have size : a.coefficient * b.coefficient = (a.signed * b.signed).natAbs := by
    rw [Int.natAbs_mul, signedSize, signedSize]
  split
  · rename_i zero
    refine ⟨_, rfl, ?_⟩
    rcases Bool.or_eq_true_iff.mp zero with none | none
    · rw [zeroSigned.mp none, Int.zero_mul]
      rfl
    · rw [zeroSigned.mp none, Int.mul_zero]
      rfl
  · rw [if_neg (by omega), left, right]
    exact nearestPlain (size ▸ room) size signsDiffer signsAgree

theorem divPlain (nonzero : b.isZero = false) (whole : b.signed ∣ a.signed)
    (room : (a.signed.tdiv b.signed).natAbs < 2 ^ 96) :
    ∃ d, a.div? b = some d ∧ d.whole? = some (a.signed.tdiv b.signed) := by
  unfold div?
  by_cases zero : a.isZero = true
  · simp only [nonzero, zero, Bool.false_eq_true, if_false, if_true]
    refine ⟨_, rfl, ?_⟩
    rw [zeroSigned.mp zero, Int.zero_tdiv]
    rfl
  have divides : a.coefficient % b.coefficient = 0 := by
    rw [← signedSize a, ← signedSize b]
    exact Nat.mod_eq_zero_of_dvd (Int.natAbs_dvd_natAbs.mpr whole)
  have size : a.coefficient / b.coefficient = (a.signed.tdiv b.signed).natAbs := by
    rw [Int.natAbs_tdiv, signedSize, signedSize]
    rfl
  have square : 0 < b.signed * b.signed := by
    have other : b.signed ≠ 0 := fun none => Bool.eq_false_iff.mp nonzero (zeroSigned.mpr none)
    exact Int.mul_pos_iff.mpr (by omega)
  have product : a.signed * b.signed = a.signed.tdiv b.signed * (b.signed * b.signed) := by
    rw [← Int.mul_assoc, Int.tdiv_mul_cancel whole]
  simp only [nonzero, zero, divides, left, right, size, Bool.false_eq_true, if_false, if_true, Nat.sub_self, Nat.pow_zero,
    Nat.mul_one]
  refine makePlain room rfl (fun below => signsDiffer ?_) fun above => signsAgree ?_
  · rw [product]
    exact Int.mul_neg_of_neg_of_pos below square
  · rw [product]
    exact Int.mul_pos above square

theorem remPlain (nonzero : b.isZero = false) : ∃ d, a.rem? b = some d ∧ d.whole? = some (a.signed.tmod b.signed) := by
  have size : (a.signed.tmod b.signed).natAbs = a.coefficient % b.coefficient := by
    rw [Int.natAbs_tmod, signedSize, signedSize]
  have plus : 0 ≤ a.signed → 0 ≤ a.signed.tmod b.signed := Int.tmod_nonneg b.signed
  have minus : a.signed ≤ 0 → a.signed.tmod b.signed ≤ 0 := fun below => by
    have opposite := Int.tmod_nonneg b.signed (Int.neg_nonneg_of_nonpos below)
    rw [Int.neg_tmod] at opposite
    omega
  have own := signedSize a
  unfold rem?
  simp only [nonzero, left, right, Nat.max_self, noPlaces, signedSize, Bool.false_eq_true, if_false]
  split
  · rename_i none
    refine ⟨_, rfl, ?_⟩
    have rest : a.coefficient % b.coefficient = 0 := by
      rcases Bool.or_eq_true_iff.mp none with zero | same
      · rw [beq_iff_eq.mp zero, Nat.zero_mod]
      · rw [beq_iff_eq.mp same, Nat.mod_self]
    rw [Int.natAbs_eq_zero.mp (size.trans rest)]
    rfl
  · split
    · rename_i smaller
      rw [Nat.mod_eq_of_lt smaller] at size
      refine ⟨a, rfl, ?_⟩
      rw [wholePlain left, Option.some.injEq]
      omega
    · have small : a.coefficient % b.coefficient < 2 ^ 96 := Nat.lt_of_le_of_lt (Nat.mod_le _ _) a.coefficientLt
      refine makePlain small size.symm (fun below => ?_) fun above => ?_
      · rw [belowZero (by omega), Bool.true_and, bne_iff_ne]
        omega
      · rw [aboveZero (by omega), Bool.false_and]

end Operations

theorem resultExact {op : BinaryOp} (arithmetic : op.Arithmetic) {n m : Int64}
    (clear : op.fault? n.toInt m.toInt = none) (whole : op = .divide → m.toInt ∣ n.toInt) :
    ∃ d, Value.decimalResult? op (ofInt64 n) (ofInt64 m) = some d ∧ d.whole? = some (op.exact n.toInt m.toInt) := by
  obtain ⟨divisor, fits⟩ := BinaryOp.faultless clear
  have room : (op.exact n.toInt m.toInt).natAbs < 2 ^ 96 := by
    unfold Fits at fits
    omega
  have nonzero (quotient : Value.isQuotient op = true) : (ofInt64 m).isZero = false :=
    Bool.eq_false_iff.mpr fun zero => divisor quotient ((ofInt64Signed m).symm.trans (zeroSigned.mp zero))
  rw [← ofInt64Signed n, ← ofInt64Signed m] at room whole ⊢
  rcases arithmetic.cases with rfl | rfl | rfl | rfl | rfl
  · exact addPlain rfl rfl room
  · exact subPlain rfl rfl room
  · exact mulPlain rfl rfl room
  · exact divPlain rfl rfl (nonzero rfl) (whole rfl) room
  · exact remPlain rfl rfl (nonzero rfl)

end Decimal

end SymbolicQuery
