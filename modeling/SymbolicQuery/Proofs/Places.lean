import SymbolicQuery.Number.Decimal
import SymbolicQuery.Proofs.Magnitude

/-! Decimals counted in their least unit. In units of the last of 28 places every decimal is a whole number: the order
compares those numbers, dropping trailing zeros keeps them and leaves one way to write each, and a whole number goes to
a floating-point number and back unchanged where that number is itself. -/
namespace SymbolicQuery

namespace Decimal

variable {d e : Decimal} {z : Int}

theorem inMorePlaces {places more : Nat} (fits : d.scale ≤ places) (room : places ≤ more) :
    d.inPlaces more = d.inPlaces places * 10 ^ (more - places) := by
  have apart : more - d.scale = places - d.scale + (more - places) := by omega
  rw [inPlaces, inPlaces, apart, Int.pow_add, Int.mul_assoc]

theorem tenPos (places : Nat) : (0 : Int) < 10 ^ places := Int.pow_pos (by decide)

theorem compareEq : d.compare e = .eq ↔ d.inPlaces 28 = e.inPlaces 28 := by
  have room : max d.scale e.scale ≤ 28 := Nat.max_le.mpr ⟨d.scaleLe, e.scaleLe⟩
  have positive := tenPos (28 - max d.scale e.scale)
  unfold compare
  rw [compare_eq_iff_eq, inMorePlaces (Nat.le_max_left _ _) room, inMorePlaces (Nat.le_max_right _ _) room,
    Int.mul_eq_mul_right_iff (Int.ne_of_gt positive)]

theorem compareComm : d.compare e = .eq ↔ e.compare d = .eq := by
  rw [compareEq, compareEq, eq_comm]

theorem signedSize (d : Decimal) : d.signed.natAbs = d.coefficient := by
  unfold signed
  split <;> omega

theorem wholeSigned : d.whole? = some z ↔ d.signed = z * 10 ^ d.scale := by
  have positive : (0 : Int) < 10 ^ d.scale := tenPos d.scale
  have divides : d.coefficient % 10 ^ d.scale = 0 ↔ (10 : Int) ^ d.scale ∣ d.signed := by
    rw [← Nat.dvd_iff_mod_eq_zero, ← signedSize, ← Int.ofNat_dvd_left, Int.natCast_pow]
    rfl
  unfold whole? truncate
  split
  · rename_i whole
    rw [Option.some.injEq, Int.tdiv_eq_iff_eq_mul_left (Int.ne_of_gt positive) (divides.mp whole)]
  · rename_i broken
    refine ⟨fun none => (Option.some_ne_none _ none.symm).elim, fun same => (broken (divides.mpr ?_)).elim⟩
    exact same ▸ Int.dvd_mul_left _ _

theorem wholePlaces : d.whole? = some z ↔ d.inPlaces 28 = z * 10 ^ 28 := by
  have apart : (10 : Int) ^ 28 = 10 ^ d.scale * 10 ^ (28 - d.scale) := by
    rw [← Int.pow_add, Nat.add_sub_cancel' d.scaleLe]
  have positive := tenPos (28 - d.scale)
  rw [wholeSigned, inPlaces, apart, ← Int.mul_assoc, Int.mul_eq_mul_right_iff (Int.ne_of_gt positive)]

theorem ofInt64Signed (n : Int64) : (ofInt64 n).signed = n.toInt := by
  unfold signed ofInt64
  dsimp only
  split <;> grind

theorem ofInt64Places (n : Int64) : (ofInt64 n).inPlaces 28 = n.toInt * 10 ^ 28 := by
  rw [inPlaces, ofInt64Signed]
  rfl

theorem stripZerosKeeps (coefficient scale : Nat) :
    (stripZeros coefficient scale).1 * 10 ^ (scale - (stripZeros coefficient scale).2) = coefficient ∧
      ((stripZeros coefficient scale).2 = 0 ∨ (stripZeros coefficient scale).1 % 10 ≠ 0) := by
  induction scale generalizing coefficient with
  | zero => simp [stripZeros]
  | succ scale ih =>
    by_cases trailing : coefficient % 10 = 0
    · obtain ⟨kept, last⟩ := ih (coefficient / 10)
      have fewer := (stripZerosLe (coefficient / 10) scale).2
      rw [stripZeros, if_pos trailing]
      refine ⟨?_, last⟩
      rw [Nat.succ_sub fewer, Nat.pow_succ, ← Nat.mul_assoc, kept]
      omega
    · rw [stripZeros, if_neg trailing]
      simp [trailing]

theorem normalizePlaces (d : Decimal) : d.normalize.inPlaces 28 = d.inPlaces 28 := by
  obtain ⟨kept, -⟩ := stripZerosKeeps d.coefficient d.scale
  have fewer : d.normalize.scale ≤ d.scale := (stripZerosLe d.coefficient d.scale).2
  have room := d.scaleLe
  have magnitude : (d.normalize.coefficient : Int) * 10 ^ (d.scale - d.normalize.scale) = d.coefficient := by
    exact_mod_cast kept
  have number : d.normalize.signed * 10 ^ (d.scale - d.normalize.scale) = d.signed := by
    have sign : d.normalize.negative = (d.negative && !d.isZero) := rfl
    unfold signed isZero at *
    rw [sign, ← magnitude]
    by_cases zero : d.coefficient = 0
    · rw [zero, Int.natCast_zero, Int.mul_eq_zero] at magnitude
      rcases magnitude with none | none
      · simp [none]
      · exact absurd none (Int.ne_of_gt (tenPos _))
    · have whole : (d.coefficient == 0) = false := beq_eq_false_iff_ne.mpr zero
      rw [whole, Bool.not_false, Bool.and_true]
      split
      · exact Int.neg_mul _ _
      · rfl
  have apart : 28 - d.normalize.scale = d.scale - d.normalize.scale + (28 - d.scale) := by omega
  rw [inPlaces, inPlaces, apart, Int.pow_add, ← Int.mul_assoc, number]

def Stripped (d : Decimal) : Prop := (d.scale = 0 ∨ d.coefficient % 10 ≠ 0) ∧ (d.negative = true → d.coefficient ≠ 0)

theorem normalizeStripped (d : Decimal) : d.normalize.Stripped := by
  obtain ⟨kept, last⟩ := stripZerosKeeps d.coefficient d.scale
  refine ⟨last, fun negative none => ?_⟩
  have vanished : d.coefficient = 0 := by
    rw [← kept, show (stripZeros d.coefficient d.scale).1 = 0 from none, Nat.zero_mul]
  simp [normalize, isZero, vanished] at negative

theorem strippedPlaces (stripped : e.Stripped) (same : d.inPlaces 28 = e.inPlaces 28) : e.scale ≤ d.scale := by
  by_contra longer
  have room := e.scaleLe
  have apart : 28 - d.scale = e.scale - d.scale - 1 + 1 + (28 - e.scale) := by omega
  have number : d.signed * 10 ^ (e.scale - d.scale - 1 + 1) = e.signed := by
    rw [inPlaces, inPlaces, apart, Int.pow_add, ← Int.mul_assoc] at same
    exact Int.eq_of_mul_eq_mul_right (Int.ne_of_gt (tenPos _)) same
  have trailing : (10 : Int) ∣ e.signed := by
    rw [← number, Int.pow_succ, ← Int.mul_assoc]
    exact Int.dvd_mul_left _ _
  have last := stripped.1
  unfold signed at trailing
  split at trailing <;> omega

theorem strippedOne (left : d.Stripped) (right : e.Stripped) (same : d.inPlaces 28 = e.inPlaces 28) : d = e := by
  have scales : d.scale = e.scale := Nat.le_antisymm (strippedPlaces left same.symm) (strippedPlaces right same)
  have number : d.signed = e.signed := by
    rw [inPlaces, inPlaces, scales] at same
    exact Int.eq_of_mul_eq_mul_right (Int.ne_of_gt (tenPos _)) same
  obtain ⟨-, leftSign⟩ := left
  obtain ⟨-, rightSign⟩ := right
  obtain ⟨negative, coefficient, scale, _, _⟩ := d
  obtain ⟨negative', coefficient', scale', _, _⟩ := e
  simp only [signed] at *
  cases negative <;> cases negative' <;> simp at * <;> omega

theorem normalizeOne : d.normalize = e.normalize ↔ d.inPlaces 28 = e.inPlaces 28 := by
  rw [← normalizePlaces d, ← normalizePlaces e]
  exact ⟨fun same => same ▸ rfl, strippedOne (normalizeStripped d) (normalizeStripped e)⟩

section Conversion

variable {x y : Binary64}

theorem wholeParts (whole : d.whole? = some z) :
    d.coefficient = z.natAbs * 10 ^ d.scale ∧ (z = 0 ∨ d.negative = decide (z < 0)) := by
  have number := wholeSigned.mp whole
  have magnitude : d.coefficient = z.natAbs * 10 ^ d.scale := by
    rw [← signedSize, number, Int.natAbs_mul, Int.natAbs_pow]
    rfl
  refine ⟨magnitude, ?_⟩
  rcases Int.lt_trichotomy z 0 with below | zero | above
  · have below' : d.signed < 0 := number ▸ Int.mul_neg_of_neg_of_pos below (tenPos d.scale)
    unfold signed at below'
    cases h : d.negative
    · simp [h] at below'
      omega
    · simp [below]
  · exact .inl zero
  · have above' : 0 < d.signed := number ▸ Int.mul_pos above (tenPos d.scale)
    unfold signed at above'
    cases h : d.negative <;> simp [h] at * <;> omega

theorem wholeBinary (whole : d.whole? = some z) :
    d.toBinary.isNaN = false ∧ d.toBinary.code = (Binary64.ofNat z.natAbs).code ∧
      (d.toBinary.negative = decide (z < 0) ∨ z = 0) := by
  -- A whole decimal has no fraction to be rounded apart.
  have positive : 0 < 10 ^ d.scale := Nat.pow_pos (by decide)
  obtain ⟨magnitude, sign⟩ := wholeParts whole
  have quotient : d.coefficient / 10 ^ d.scale = z.natAbs := by rw [magnitude, Nat.mul_div_cancel _ positive]
  have rest : d.coefficient % 10 ^ d.scale = 0 := by rw [magnitude, Nat.mul_mod_left]
  have number : (Binary64.ofNat z.natAbs).isNaN = false := Binary64.ofUnitsNumber _ _ _
  have whole : d.toBinary =
      if d.negative && (d.scale != 0 || !d.isZero) then (Binary64.ofNat z.natAbs).neg else Binary64.ofNat z.natAbs := by
    unfold toBinary
    simp only [quotient, rest]
    by_cases none : d.scale = 0
    · simp [none]
    · have bound : 10 ^ d.scale < 2 ^ 95 :=
        Nat.lt_of_le_of_lt (Nat.pow_le_pow_right (by decide) d.scaleLe) (by decide)
      have unit : (Binary64.ofNat (10 ^ d.scale)).isZero = false :=
        Bool.eq_false_iff.mpr fun zero => Nat.ne_of_gt positive ((Binary64.ofNatZero bound).mp zero)
      have fraction : ((Binary64.ofNat 0).div (Binary64.ofNat (10 ^ d.scale))).isZero = true :=
        Binary64.zeroDiv ((Binary64.ofNatZero (by decide)).mpr rfl) (Binary64.ofUnitsNumber _ _ _) unit
      simp [none, fraction]
  have plus : (Binary64.ofNat z.natAbs).negative = false := rfl
  generalize Binary64.ofNat z.natAbs = m at whole number plus
  have nothing : d.isZero = true → z = 0 := fun zero => by
    have none : z.natAbs * 10 ^ d.scale = 0 := magnitude ▸ beq_iff_eq.mp zero
    rcases Nat.mul_eq_zero.mp none with none | none <;> omega
  rw [whole]
  split
  · refine ⟨number, rfl, ?_⟩
    have minus : m.neg.negative = true := congrArg (! ·) plus
    grind
  · refine ⟨number, rfl, ?_⟩
    grind

theorem wholeCompares (whole : d.whole? = some z) : d.toBinary.compare (Binary64.ofInt z) = some .eq := by
  obtain ⟨number, code, sign⟩ := wholeBinary whole
  have zero : z = 0 → d.toBinary.code = 0 := fun none => by
    rw [code, none]
    exact beq_iff_eq.mp ((Binary64.ofNatZero (by decide)).mpr rfl)
  exact Binary64.compareEq.mpr ⟨⟨number, Binary64.ofUnitsNumber _ _ _⟩, code, sign.imp id zero⟩

theorem takeHalvesExact (places n : Nat) : takeHalves places (n * 2 ^ places) 0 = (n, 0) := by
  induction places with
  | zero => simp [takeHalves]
  | succ places ih =>
    have even : n * 2 ^ (places + 1) % 2 = 0 := by
      rw [Nat.pow_succ, ← Nat.mul_assoc, Nat.mul_mod_left]
    have half : n * 2 ^ (places + 1) / 2 = n * 2 ^ places := by
      rw [Nat.pow_succ, ← Nat.mul_assoc, Nat.mul_div_cancel _ (by decide)]
    rw [takeHalves, if_pos even, half, ih]

theorem ofBinaryPlain (whole : x.whole? = some z) (room : z.natAbs < 2 ^ 96) :
    ofBinary? x = some ⟨x.negative, z.natAbs, 0, room, by decide⟩ := by
  obtain ⟨finite, units, -⟩ := Binary64.wholeEq.mp whole
  have made : make? x.negative z.natAbs 0 = some ⟨x.negative, z.natAbs, 0, room, by decide⟩ :=
    dif_pos ⟨room, by decide⟩
  unfold ofBinary?
  simp only [finite, Bool.not_true, Bool.false_eq_true, if_false]
  by_cases zero : x.isZero = true
  · have none : z = 0 := by
      have product : z.natAbs * Binary64.one = 0 := units ▸ Binary64.zeroUnits.mpr (beq_iff_eq.mp zero)
      have positive := Binary64.onePos
      rcases Nat.mul_eq_zero.mp product with none | none <;> omega
    subst none
    exact if_pos zero
  · rw [if_neg zero]
    have parts : x.significand * 2 ^ x.shift = z.natAbs * Binary64.one := units
    by_cases large : 1074 ≤ x.shift
    · have kept : x.significand * 2 ^ (x.shift - 1074) = z.natAbs := by
        have places : x.shift = x.shift - 1074 + 1074 := by omega
        rw [places, Binary64.powOne, ← Nat.mul_assoc] at parts
        exact Nat.eq_of_mul_eq_mul_right Binary64.onePos parts
      rw [if_pos large, kept]
      exact made
    · have kept : x.significand = z.natAbs * 2 ^ (1074 - x.shift) := by
        have apart : Binary64.one = 2 ^ (1074 - x.shift) * 2 ^ x.shift := by
          have places : 1074 - x.shift + x.shift = 1074 := by omega
          unfold Binary64.one
          rw [← Nat.pow_add, places]
        rw [apart, ← Nat.mul_assoc] at parts
        exact Nat.eq_of_mul_eq_mul_right (Nat.two_pow_pos _) parts
      rw [if_neg large, kept, takeHalvesExact]
      exact made

theorem ofBinaryWhole (whole : x.whole? = some z) (room : z.natAbs < 2 ^ 96) :
    ∃ back, ofBinary? x = some back ∧ back.whole? = some z := by
  obtain ⟨-, -, sign⟩ := Binary64.wholeEq.mp whole
  refine ⟨_, ofBinaryPlain whole room, wholeSigned.mpr ?_⟩
  simp only [signed]
  grind

theorem ofBinaryFinite (read : ofBinary? x = some d) : x.isFinite = true := by
  cases finite : x.isFinite with
  | true => rfl
  | false => simp [ofBinary?, finite] at read

theorem ofBinaryEq (same : x.compare y = some .eq) (left : ofBinary? x = some d) (right : ofBinary? y = some e) :
    d.compare e = .eq := by
  rcases Binary64.equalCases same with rfl | ⟨zero, zero'⟩
  · have same : d = e := Option.some.inj (left.symm.trans right)
    rw [compareEq, same]
  · obtain ⟨back, read, whole⟩ := ofBinaryWhole zero (by decide)
    obtain ⟨back', read', whole'⟩ := ofBinaryWhole zero' (by decide)
    have first : back = d := Option.some.inj (read.symm.trans left)
    have second : back' = e := Option.some.inj (read'.symm.trans right)
    rw [compareEq, wholePlaces.mp (first ▸ whole), wholePlaces.mp (second ▸ whole')]

end Conversion

end Decimal

end SymbolicQuery
