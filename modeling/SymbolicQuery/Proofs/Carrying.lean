import SymbolicQuery.Proofs.Holding
import SymbolicQuery.Proofs.Lockstep
import SymbolicQuery.Proofs.Wholes

/-! Whole numbers that are carried as floating-point ones. Beside a value that is no whole number it does not matter
which of the two a number is. Two whole numbers, though, are computed as such: their sum, difference, product and
remainder are the same as long as they have room in 64 bits, while their quotient is cut. -/
namespace SymbolicQuery

namespace Value

/-- The same value, or for a whole number within the precision the floating-point number that it is. -/
inductive Recarried : Value → Value → Prop where
  | same {a} : Recarried a a
  | float {n : Int64} (exact : n.toInt.natAbs ≤ 2 ^ 53) : Recarried (.integer n) (.float (Binary64.ofInt n.toInt))

variable {op : BinaryOp} {a b a' b' v : Value} {n m : Int64} {x y : Binary64}

theorem Recarried.decimal (carried : a.Recarried a') : a'.asDecimal? = a.asDecimal? := by
  cases carried with
  | same => rfl
  | float exact => exact Decimal.ofBinaryPlain (Binary64.ofIntExact exact) (by omega)

section Ways

def byDecimals (op : BinaryOp) (a b : Value) : Except QueryError Value :=
  match a.asDecimal?, b.asDecimal? with
  | some x, some y =>
    if isQuotient op && y.isZero then .error .divisionByZero
    else match decimalResult? op x y with
      | some d => .ok (.decimal d)
      | none => .error (.overflow (a.text ++ " " ++ op.symbol ++ " " ++ b.text))
  | _, _ => .error (.failure (.applies op.symbol a.kindName b.kindName))

def byFloats (op : BinaryOp) (a b : Value) (x y : Binary64) : Except QueryError Value :=
  if isQuotient op && y.isZero then .error .divisionByZero else .ok (.float (mixedResult op a b x y))

theorem arithmeticDecimalLeft {d : Decimal} (present : b ≠ .null) :
    arithmetic op (.decimal d) b = byDecimals op (.decimal d) b := by
  cases b with
  | null => exact (present rfl).elim
  | _ => rfl

theorem arithmeticDecimalRight {d : Decimal} (present : a ≠ .null) :
    arithmetic op a (.decimal d) = byDecimals op a (.decimal d) := by
  cases a with
  | null => exact (present rfl).elim
  | _ => rfl

theorem arithmeticFloats : arithmetic op (.float x) (.float y) = byFloats op (.float x) (.float y) x y := rfl

theorem arithmeticFloatWhole :
    arithmetic op (.float x) (.integer n) = byFloats op (.float x) (.integer n) x (Binary64.ofInt n.toInt) := rfl

theorem arithmeticWholeFloat :
    arithmetic op (.integer n) (.float x) = byFloats op (.integer n) (.float x) (Binary64.ofInt n.toInt) x := rfl

variable (left : a.Recarried a') (right : b.Recarried b')

include left right

theorem byDecimalsSame : Outcomes Eq (byDecimals op a b) (byDecimals op a' b') := by
  unfold byDecimals
  rw [left.decimal, right.decimal]
  split
  · split
    · exact .refl
    · split
      · exact .refl
      · exact .error (by simp only [QueryError.kind])
  · exact .error rfl

theorem byFloatsSame : byFloats op a' b' x y = byFloats op a b x y := by
  unfold byFloats mixedResult
  rw [left.decimal, right.decimal]

end Ways

theorem leftSame (exact : n.toInt.natAbs ≤ 2 ^ 53) (other : ∀ m, b ≠ .integer m) :
    Outcomes Eq (arithmetic op (.integer n) b) (arithmetic op (.float (Binary64.ofInt n.toInt)) b) := by
  cases b with
  | integer m => exact (other m rfl).elim
  | null => exact .ok rfl
  | float y =>
    rw [arithmeticFloats, arithmeticWholeFloat, byFloatsSame (.float exact) .same]
    exact .refl
  | decimal d =>
    rw [arithmeticDecimalRight (a := .integer n) nofun, arithmeticDecimalRight (a := .float _) nofun]
    exact byDecimalsSame (.float exact) .same
  | _ => exact .error rfl

theorem rightSame (exact : m.toInt.natAbs ≤ 2 ^ 53) (other : ∀ n, a ≠ .integer n) :
    Outcomes Eq (arithmetic op a (.integer m)) (arithmetic op a (.float (Binary64.ofInt m.toInt))) := by
  cases a with
  | integer n => exact (other n rfl).elim
  | null => exact .ok rfl
  | float y =>
    rw [arithmeticFloats, arithmeticFloatWhole, byFloatsSame .same (.float exact)]
    exact .refl
  | decimal d =>
    rw [arithmeticDecimalLeft (b := .integer m) nofun, arithmeticDecimalLeft (b := .float _) nofun]
    exact byDecimalsSame .same (.float exact)
  | _ => exact .error rfl

theorem apartSame (first : a.Recarried a') (second : b.Recarried b')
    (apart : ∀ n m, a = .integer n → b ≠ .integer m) : Outcomes Eq (arithmetic op a b) (arithmetic op a' b') := by
  cases first with
  | same =>
    cases second with
    | same => exact .refl
    | @float m exact => exact rightSame exact fun n whole => apart n m whole rfl
  | @float n exact =>
    cases second with
    | same => exact leftSame exact fun m whole => apart n m rfl whole
    | @float m exact' => exact (apart n m rfl rfl).elim

theorem computedEquals (computed : Computed a b v) : v.equals v = true ↔ ∀ x, v = .float x → x.isNaN = false := by
  have self {x : Binary64} : x.compare x = some .eq ↔ x.isNaN = false :=
    ⟨fun same => (Binary64.compareEq.mp same).1.1, Binary64.compareSelf⟩
  cases computed <;> simp [equals, sameKey, asFloat?, compare, Decimal.compare, self]

theorem equalNumber (same : v.equals (.float x) = true) : x.isNaN = false := by
  have number {y : Binary64} (equal : y.compare x = some .eq) : x.isNaN = false := (Binary64.compareEq.mp equal).1.2
  cases v <;> simp [equals, sameKey, asFloat?, compare, numberKey?] at same <;> exact number same

theorem sameEquals {outcome : Except QueryError Value} (same : Outcomes Eq (arithmetic op a b) outcome) :
    Outcomes (fun v w => v.equals w = true) (arithmetic op a b) outcome ↔
      ∀ x, outcome = .ok (.float x) → x.isNaN = false := by
  generalize result : arithmetic op a b = outcome' at same ⊢
  cases same with
  | @ok v w equal =>
    subst equal
    have number := computedEquals (arithmeticComputes result)
    simp only [Except.ok.injEq, ← number]
    exact ⟨fun | .ok related => related, fun related => .ok related⟩
  | error kinds => exact iff_of_true (.error kinds) nofun

def binaryResult (op : BinaryOp) (n m : Int64) : Binary64 :=
  mixedResult op (.integer n) (.integer m) (Binary64.ofInt n.toInt) (Binary64.ofInt m.toInt)

/-- Whether whole numbers give what their floating-point numbers give: there is no zero divisor on either side, or the
result has room and no quotient is cut, at least not so that it shows among floating-point numbers. -/
def Faithful (op : BinaryOp) (n m : Int64) : Prop :=
  op.fault? n.toInt m.toInt = some .divisionByZero ∨ op.fault? n.toInt m.toInt = none ∧
    (op = .divide → m.toInt ∣ n.toInt ∨
      (Binary64.ofInt (n.toInt.tdiv m.toInt)).compare (binaryResult .divide n m) = some .eq)

theorem changedPair (first : (Value.integer n).Recarried a') (second : (Value.integer m).Recarried b')
    (changed : ¬ (a' = .integer n ∧ b' = .integer m)) :
    arithmetic op a' b' =
      byFloats op (.integer n) (.integer m) (Binary64.ofInt n.toInt) (Binary64.ofInt m.toInt) := by
  cases first with
  | same =>
    cases second with
    | same => exact (changed ⟨rfl, rfl⟩).elim
    | float exact => rw [arithmeticWholeFloat, byFloatsSame .same (.float exact)]
  | float exact =>
    cases second with
    | same => rw [arithmeticFloatWhole, byFloatsSame (.float exact) .same]
    | float exact' => rw [arithmeticFloats, byFloatsSame (.float exact) (.float exact')]

theorem wholeResult (arithmetic : op.Arithmetic) (clear : op.fault? n.toInt m.toInt = none)
    (whole : op = .divide → m.toInt ∣ n.toInt) :
    (Binary64.ofInt (op.exact n.toInt m.toInt)).compare (binaryResult op n m) = some .eq := by
  obtain ⟨d, result, exact⟩ := Decimal.resultExact arithmetic clear whole
  have own : binaryResult op n m = d.toBinary := by
    unfold binaryResult mixedResult
    simp only [asDecimal?, result, Option.map_some, Option.getD_some]
  rw [own]
  exact Binary64.compareSymm (Decimal.wholeCompares exact)

theorem faultDivides {z w : Int} : op.fault? z w = some .divisionByZero ↔ isQuotient op = true ∧ w = 0 := by
  unfold BinaryOp.fault?
  split
  · exact iff_of_true rfl ‹_›
  · refine iff_of_false (fun fault => ?_) ‹_›
    split at fault
    · cases fault
    · split at fault <;> cases fault

theorem byFloatsWhole :
    byFloats op (.integer n) (.integer m) (Binary64.ofInt n.toInt) (Binary64.ofInt m.toInt) =
      if op.fault? n.toInt m.toInt = some .divisionByZero then .error .divisionByZero
      else .ok (.float (binaryResult op n m)) := by
  have zero : (Binary64.ofInt m.toInt).isZero = true ↔ m.toInt = 0 := by
    have range := fits64 m
    unfold Fits at range
    exact (Binary64.ofNatZero (by omega)).trans Int.natAbs_eq_zero
  unfold byFloats
  simp only [faultDivides, Bool.and_eq_true, zero]
  rfl

theorem faithfulShows (arithmetic : op.Arithmetic) (clear : op.fault? n.toInt m.toInt = none) :
    Faithful op n m ↔ (Binary64.ofInt (op.exact n.toInt m.toInt)).compare (binaryResult op n m) = some .eq := by
  unfold Faithful
  simp only [clear, reduceCtorEq, false_or, true_and]
  by_cases division : op = .divide
  · subst division
    refine ⟨fun exact => (exact rfl).elim (fun whole => wholeResult arithmetic clear fun _ => whole) id,
      fun shows _ => .inr shows⟩
  · exact iff_of_true (fun divide => (division divide).elim)
      (wholeResult arithmetic clear fun divide => (division divide).elim)

theorem pairIff (arithmetic : op.Arithmetic) :
    Outcomes (fun v w => v.equals w = true) (Value.arithmetic op (.integer n) (.integer m))
        (byFloats op (.integer n) (.integer m) (Binary64.ofInt n.toInt) (Binary64.ofInt m.toInt)) ↔
      Faithful op n m := by
  have comes := arithmeticComes arithmetic n m
  rw [arithmeticApply arithmetic] at comes
  rw [byFloatsWhole]
  generalize Value.arithmetic op (.integer n) (.integer m) = outcome at comes ⊢
  cases fault : op.fault? n.toInt m.toInt with
  | none =>
    rw [fault] at comes
    obtain ⟨same⟩ := comes
    rw [if_neg (by simp), faithfulShows arithmetic fault, ← same]
    refine ⟨?_, fun shows => .ok ?_⟩
    · rintro ⟨equal⟩
      simpa [equals, asFloat?, compare] using equal
    · simpa [equals, asFloat?, compare] using shows
  | some kind =>
    rw [fault] at comes
    cases comes with
    | error kinds =>
      unfold Faithful
      -- beside a zero divisor there is only overflow, which floating-point numbers do not have
      by_cases divides : kind = .divisionByZero
      · rw [if_pos (congrArg some divides)]
        exact iff_of_true (.error (kinds.trans divides)) (.inl (divides ▸ fault))
      · rw [if_neg fun divisor => divides (Option.some.inj divisor)]
        refine iff_of_false (fun related => ?_) (by simp [fault, divides])
        cases related

/-- Carrying whole numbers as floating-point ones leaves an equal result, or an error of the same kind, exactly if the
result is a number at all and the operands are not two whole numbers whose own result is another one. -/
theorem carriersAgreeIff (arithmetic : op.Arithmetic) (first : a.Recarried a') (second : b.Recarried b') :
    Outcomes (fun v w => v.equals w = true) (a.apply op b) (a'.apply op b') ↔
      (∀ x, a'.apply op b' = .ok (.float x) → x.isNaN = false) ∧
        ∀ n m, a = .integer n → b = .integer m → a' = a ∧ b' = b ∨ Faithful op n m := by
  rw [arithmeticApply arithmetic, arithmeticApply arithmetic]
  by_cases pair : ∃ n m, a = .integer n ∧ b = .integer m
  · obtain ⟨n, m, rfl, rfl⟩ := pair
    by_cases unchanged : a' = .integer n ∧ b' = .integer m
    · rw [unchanged.1, unchanged.2, sameEquals .refl]
      exact ⟨fun number => ⟨number, fun _ _ _ _ => .inl ⟨rfl, rfl⟩⟩, And.left⟩
    · rw [changedPair first second unchanged, pairIff arithmetic]
      refine ⟨fun faithful => ⟨fun x float => ?_, ?_⟩, fun ⟨_, agree⟩ => (agree n m rfl rfl).resolve_left unchanged⟩
      · have related := (pairIff arithmetic).mpr faithful
        rw [float] at related
        generalize Value.arithmetic op (.integer n) (.integer m) = outcome at related
        obtain ⟨same⟩ := related
        exact equalNumber same
      · rintro _ _ ⟨⟩ ⟨⟩
        exact .inr faithful
  · have apart : ∀ n m, a = .integer n → b ≠ .integer m := fun n m left right => pair ⟨n, m, left, right⟩
    rw [sameEquals (apartSame first second apart)]
    exact ⟨fun number => ⟨number, fun n m left right => (apart n m left right).elim⟩, And.left⟩

theorem carriersAgreeIffOfSix : BinaryOp.divide.Arithmetic ∧
    Recarried (.integer 6) (.float (Binary64.ofInt (6 : Int64).toInt)) ∧ Recarried (.integer 3) (.integer 3) ∧
    Outcomes (fun v w => v.equals w = true) (apply .divide (.integer 6) (.integer 3))
      (apply .divide (.float (Binary64.ofInt (6 : Int64).toInt)) (.integer 3)) := by
  have carried : Recarried (.integer 6) (.float (Binary64.ofInt (6 : Int64).toInt)) := .float (by decide)
  refine ⟨by decide, carried, .same, (carriersAgreeIff (by decide) carried .same).mpr ⟨fun x result => ?_, ?_⟩⟩
  · rw [arithmeticApply (by decide), changedPair carried .same (by simp)] at result
    cases guardedResult result
    decide +kernel
  · rintro _ _ ⟨⟩ ⟨⟩
    exact .inr (.inr ⟨by decide, fun _ => .inl (by decide)⟩)

/- Both carriers of seven are floats and equal, as numbers and as keys. Its half is 3 by one and 3.5 by the other. -/
theorem quotientCut :
    let seven := Value.float (Binary64.ofInt (7 : Int64).toInt)
    let half := Binary64.ofRatio false 7 2
    Ty.float.accepts (.integer 7) = true ∧ Ty.float.accepts seven = true ∧ Ty.float.accepts (.integer 2) = true ∧
      Recarried (.integer 7) seven ∧ (Value.integer 7).equals seven = true ∧ (Value.integer 7).sameKey seven = true ∧
      apply .divide (.integer 7) (.integer 2) = .ok (.integer 3) ∧
      apply .divide seven (.integer 2) = .ok (.float half) ∧ (Value.integer 3).equals (.float half) = false ∧
      ¬ Outcomes (fun v w => v.equals w = true) (apply .divide (.integer 7) (.integer 2))
        (apply .divide seven (.integer 2)) := by
  intro seven half
  have whole : apply .divide (.integer 7) (.integer 2) = .ok (.integer 3) := rfl
  have quotient : apply .divide seven (.integer 2) = .ok (.float half) := by
    have nonzero : (isQuotient .divide && (Binary64.ofInt (2 : Int64).toInt).isZero) = false := by decide +kernel
    have exact : mixedResult .divide seven (.integer 2) (Binary64.ofInt (7 : Int64).toInt)
      (Binary64.ofInt (2 : Int64).toInt) = half := by decide +kernel
    rw [arithmeticApply (by decide), arithmeticFloatWhole, byFloats, nonzero, exact]
    rfl
  have unequal : (Value.integer 3).equals (.float half) = false := by decide +kernel
  refine ⟨rfl, rfl, rfl, .float (by decide), by decide +kernel, by decide +kernel, whole, quotient, unequal, ?_⟩
  rw [whole, quotient]
  rintro ⟨equal⟩
  exact Bool.false_ne_true (unequal.symm.trans equal)

end Value

end SymbolicQuery
