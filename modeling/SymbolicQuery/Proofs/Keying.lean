import SymbolicQuery.Value.Group
import SymbolicQuery.Proofs.Places

/-! The equality of conditions and the equality of keys. A key is exact, a comparison with a floating-point number goes
through that number, so the two agree on numbers that come back from the floating-point number they are compared by and
part on the others. -/
namespace SymbolicQuery

theorem wholeIn64 {z : Option Int} {n : Int64} : z.bind int64? = some n ↔ z = some n.toInt := by
  simp only [Option.bind_eq_some_iff, int64Eq]
  grind

def Decimal.regained (d : Decimal) : Bool := (Decimal.ofBinary? d.toBinary).any (·.compare d == .eq)

namespace NumberKey

variable {x y : Binary64} {d e : Decimal} {n : Int64}

theorem ofFloatCases (x : Binary64) :
    (∃ n : Int64, x.whole? = some n.toInt ∧ ofFloat x = .whole n) ∨
      (∀ n : Int64, x.whole? ≠ some n.toInt) ∧ ofFloat x = .bits x := by
  unfold ofFloat
  cases known : x.whole?.bind int64? with
  | some n => exact .inl ⟨n, wholeIn64.mp known, rfl⟩
  | none => exact .inr ⟨fun n whole => Option.some_ne_none n ((wholeIn64.mpr whole).symm.trans known), rfl⟩

theorem ofFloatWhole : ofFloat x = .whole n ↔ x.whole? = some n.toInt := by
  rcases ofFloatCases x with ⟨m, whole, key⟩ | ⟨none, key⟩
  · rw [key, whole, NumberKey.whole.injEq, Option.some.injEq, Int64.toInt_inj]
  · simp [key, none]

theorem ofFloatEq (left : x.isNaN = false) (right : y.isNaN = false) :
    ofFloat x = ofFloat y ↔ x.compare y = some .eq := by
  constructor
  · intro same
    rcases ofFloatCases x with ⟨n, whole, key⟩ | ⟨-, key⟩
    · have other := ofFloatWhole.mp (same.symm.trans key)
      exact Binary64.compareTrans (Binary64.compareSymm (Binary64.wholeOf whole)) (Binary64.wholeOf other)
    · rcases ofFloatCases y with ⟨m, -, key'⟩ | ⟨-, key'⟩
      · simp [key, key'] at same
      · rw [key, key', bits.injEq] at same
        exact same ▸ Binary64.compareSelf left
  · intro same
    have whole := Binary64.wholeSame same
    rcases ofFloatCases x with ⟨n, known, key⟩ | ⟨none, -⟩
    · rw [key, ofFloatWhole.mpr (whole ▸ known)]
    · rcases Binary64.equalCases same with rfl | ⟨zero, -⟩
      · rfl
      · exact (none 0 zero).elim

theorem ofDecimalCases (d : Decimal) :
    (∃ n : Int64, d.whole? = some n.toInt ∧ ofDecimal d = .whole n) ∨
      (∀ n : Int64, d.whole? ≠ some n.toInt) ∧
        ofDecimal d = if d.regained then ofFloat d.toBinary else .decimal d.normalize := by
  unfold ofDecimal
  cases known : d.whole?.bind int64? with
  | some n => exact .inl ⟨n, wholeIn64.mp known, rfl⟩
  | none =>
    refine .inr ⟨fun n whole => Option.some_ne_none n ((wholeIn64.mpr whole).symm.trans known), ?_⟩
    unfold Decimal.regained
    cases Decimal.ofBinary? d.toBinary <;> simp

theorem regainedBack : d.regained = true ↔
    ∃ back, Decimal.ofBinary? d.toBinary = some back ∧ back.compare d = .eq := by
  simp [Decimal.regained, Option.any_eq_true]

theorem wholeRegained (whole : d.whole? = some n.toInt) :
    d.regained = ((Binary64.ofInt n.toInt).whole? == some n.toInt) := by
  have low := Int64.le_toInt n
  have high := Int64.toInt_lt n
  obtain ⟨m, near, size⟩ := Binary64.ofIntWhole (by omega : n.toInt.natAbs < 2 ^ 95)
  have own : d.toBinary.whole? = some m := by rw [Binary64.wholeSame (Decimal.wholeCompares whole), near]
  obtain ⟨back, read, known⟩ := Decimal.ofBinaryWhole own (by omega)
  have same : back.compare d = .eq ↔ m = n.toInt := by
    rw [Decimal.compareEq, Decimal.wholePlaces.mp known, Decimal.wholePlaces.mp whole]
    omega
  rw [Bool.eq_iff_iff, regainedBack, near, beq_iff_eq, Option.some.injEq, ← same]
  simp [read]

theorem ofDecimalWhole : ofDecimal d = .whole n ↔ d.whole? = some n.toInt := by
  rcases ofDecimalCases d with ⟨m, whole, key⟩ | ⟨none, key⟩
  · rw [key, whole, NumberKey.whole.injEq, Option.some.injEq, Int64.toInt_inj]
  · refine iff_of_false (fun same => ?_) (none n)
    cases regained : d.regained with
    | false => simp [key, regained] at same
    | true =>
      rw [key, regained, if_pos rfl, ofFloatWhole] at same
      have low := Int64.le_toInt n
      have high := Int64.toInt_lt n
      obtain ⟨back, read, known⟩ := Decimal.ofBinaryWhole same (by omega)
      obtain ⟨back', read', equal⟩ := regainedBack.mp regained
      obtain rfl : back = back' := Option.some.inj (read.symm.trans read')
      rw [Decimal.wholePlaces, Decimal.compareEq.mp equal] at known
      exact none n (Decimal.wholePlaces.mpr known)

theorem ofDecimalRegained (regained : d.regained = true) : ofDecimal d = ofFloat d.toBinary := by
  rcases ofDecimalCases d with ⟨n, whole, key⟩ | ⟨-, key⟩
  · have own := wholeRegained whole
    rw [regained] at own
    have back : (Binary64.ofInt n.toInt).whole? = some n.toInt := beq_iff_eq.mp own.symm
    rw [key, eq_comm, ofFloatWhole, Binary64.wholeSame (Decimal.wholeCompares whole), back]
  · rw [key, if_pos regained]

theorem ofFloatNotDecimal : ofFloat x ≠ .decimal d := by
  rcases ofFloatCases x with ⟨n, -, key⟩ | ⟨-, key⟩ <;> simp [key]

theorem regainedNumber (regained : d.regained = true) : d.toBinary.isNaN = false := by
  obtain ⟨back, read, -⟩ := regainedBack.mp regained
  exact Binary64.finiteNumber (Decimal.ofBinaryFinite read)

theorem regainedEq (left : d.regained = true) (right : e.regained = true)
    (same : d.toBinary.compare e.toBinary = some .eq) : d.compare e = .eq := by
  obtain ⟨back, read, own⟩ := regainedBack.mp left
  obtain ⟨back', read', own'⟩ := regainedBack.mp right
  have equal := Decimal.ofBinaryEq same read read'
  rw [Decimal.compareEq] at *
  exact own.symm.trans (equal.trans own')

theorem wholeCompares (left : d.whole? = some n.toInt) (right : e.whole? = some n.toInt) :
    d.toBinary.compare e.toBinary = some .eq :=
  Binary64.compareTrans (Decimal.wholeCompares left) (Binary64.compareSymm (Decimal.wholeCompares right))

theorem ofDecimalEq : ofDecimal d = ofDecimal e ↔ d.compare e = .eq ∧ d.regained = e.regained ∧
    (d.toBinary.compare e.toBinary = some .eq ∨ d.regained = false) := by
  rcases ofDecimalCases d with ⟨n, whole, key⟩ | ⟨none, key⟩
  · have equal : d.compare e = .eq ↔ e.whole? = some n.toInt := by
      rw [Decimal.compareEq, Decimal.wholePlaces.mp whole, Decimal.wholePlaces, eq_comm]
    rw [key, eq_comm, ofDecimalWhole, equal]
    refine ⟨fun other => ⟨other, ?_, .inl (wholeCompares whole other)⟩, And.left⟩
    rw [wholeRegained whole, wholeRegained other]
  · rcases ofDecimalCases e with ⟨n, whole, key'⟩ | ⟨-, key'⟩
    · have equal : d.compare e ≠ .eq := fun equal => by
        rw [Decimal.wholePlaces, ← Decimal.compareEq.mp equal] at whole
        exact none n (Decimal.wholePlaces.mpr whole)
      rw [key', ofDecimalWhole]
      exact iff_of_false (none n) fun both => equal both.1
    · cases left : d.regained <;> cases right : e.regained <;> simp only [key, key', left, right]
      · simp [Decimal.normalizeOne, Decimal.compareEq]
      · simpa using ofFloatNotDecimal.symm
      · simpa using ofFloatNotDecimal
      · simpa [ofFloatEq (regainedNumber left) (regainedNumber right)] using regainedEq left right

theorem ofDecimalOfFloat (number : y.isNaN = false) :
    ofDecimal d = ofFloat y ↔ d.toBinary.compare y = some .eq ∧ d.regained = true := by
  cases regained : d.regained with
  | true => simp [ofDecimalRegained regained, ofFloatEq (regainedNumber regained) number]
  | false =>
    refine iff_of_false (fun same => ?_) (by simp)
    rcases ofDecimalCases d with ⟨n, whole, key⟩ | ⟨-, key⟩
    · have other := ofFloatWhole.mp (same.symm.trans key)
      have back : (Binary64.ofInt n.toInt).whole? = some n.toInt :=
        (Binary64.wholeSame (Binary64.wholeOf other)).trans other
      rw [wholeRegained whole, back] at regained
      simp at regained
    · rw [key, regained, if_neg Bool.false_ne_true] at same
      exact ofFloatNotDecimal same.symm

end NumberKey

namespace Value

variable {a b : Value}

def regained : Value → Bool
  | .integer n => (Binary64.ofInt n.toInt).whole? == some n.toInt
  | .decimal d => d.regained
  | _ => true

def Matched (a b : Value) : Prop := ∀ x y, a.asFloat? = some x → b.asFloat? = some y →
  a.regained = b.regained ∧ (x.compare y = some .eq ∨ a.regained = false)

theorem matchedSymm (matched : a.Matched b) : b.Matched a := fun y x right left => by
  obtain ⟨alike, numbers⟩ := matched x y left right
  exact ⟨alike.symm, numbers.imp Binary64.compareSymm (alike ▸ id)⟩

theorem matchedIff {x y : Binary64} (left : a.asFloat? = some x) (right : b.asFloat? = some y) :
    a.Matched b ↔ a.regained = b.regained ∧ (x.compare y = some .eq ∨ a.regained = false) := by
  simp [Matched, left, right]

theorem integers (n m : Int64) :
    NumberKey.whole n = .whole m ↔ Ord.compare n.toInt m.toInt = .eq ∧ (Value.integer n).Matched (.integer m) := by
  rw [NumberKey.whole.injEq, compare_eq_iff_eq, Int64.toInt_inj, matchedIff rfl rfl]
  refine ⟨fun same => ⟨same, same ▸ ⟨rfl, .inl ?_⟩⟩, And.left⟩
  exact Binary64.compareSelf (Binary64.ofUnitsNumber _ _ _)

theorem integerDecimal (n : Int64) (d : Decimal) :
    NumberKey.whole n = .ofDecimal d ↔
      (Decimal.ofInt64 n).compare d = .eq ∧ (Value.integer n).Matched (.decimal d) := by
  have equal : (Decimal.ofInt64 n).compare d = .eq ↔ d.whole? = some n.toInt := by
    rw [Decimal.compareEq, Decimal.ofInt64Places, Decimal.wholePlaces, eq_comm]
  rw [eq_comm, NumberKey.ofDecimalWhole, equal, matchedIff rfl rfl]
  refine ⟨fun whole => ⟨whole, (NumberKey.wholeRegained whole).symm, .inl ?_⟩, And.left⟩
  exact Binary64.compareSymm (Decimal.wholeCompares whole)

theorem integerFloat (n : Int64) (y : Binary64) :
    NumberKey.whole n = .ofFloat y ↔
      (Binary64.ofInt n.toInt).compare y = some .eq ∧ (Value.integer n).Matched (.float y) := by
  rw [eq_comm, NumberKey.ofFloatWhole, matchedIff rfl rfl]
  constructor
  · intro whole
    have same := Binary64.wholeOf whole
    exact ⟨same, beq_iff_eq.mpr ((Binary64.wholeSame same).trans whole), .inl same⟩
  · rintro ⟨same, regained, -⟩
    have back : (Binary64.ofInt n.toInt).whole? = some n.toInt := beq_iff_eq.mp regained
    exact (Binary64.wholeSame same).symm.trans back

theorem decimals (d e : Decimal) :
    NumberKey.ofDecimal d = .ofDecimal e ↔ d.compare e = .eq ∧ (Value.decimal d).Matched (.decimal e) := by
  rw [matchedIff rfl rfl]
  exact NumberKey.ofDecimalEq

theorem decimalFloat (d : Decimal) {y : Binary64} (number : y.isNaN = false) :
    NumberKey.ofDecimal d = .ofFloat y ↔
      d.toBinary.compare y = some .eq ∧ (Value.decimal d).Matched (.float y) := by
  rw [matchedIff rfl rfl, NumberKey.ofDecimalOfFloat number]
  refine ⟨fun ⟨same, regained⟩ => ⟨same, regained, .inl same⟩, fun ⟨same, regained, _⟩ => ⟨same, regained⟩⟩

theorem floats {x y : Binary64} (left : x.isNaN = false) (right : y.isNaN = false) :
    NumberKey.ofFloat x = .ofFloat y ↔ x.compare y = some .eq ∧ (Value.float x).Matched (.float y) := by
  rw [matchedIff rfl rfl, NumberKey.ofFloatEq left right]
  exact ⟨fun same => ⟨same, rfl, .inl same⟩, And.left⟩

theorem numberCases (a : Value) :
    a.asFloat? = none ∨ (∃ n, a = .integer n) ∨ (∃ x, a = .float x) ∨ ∃ d, a = .decimal d := by
  cases a <;> simp [asFloat?]

theorem notNumbers (apart : a.asFloat? = none ∨ b.asFloat? = none) :
    a.sameKey b = true ↔ a.equals b = true ∧ a.Matched b := by
  have same : a.equals b = a.sameKey b := by
    unfold equals
    rcases apart with none | none <;> rw [none]
    cases a.asFloat? <;> rfl
  have matched : a.Matched b := fun x y left right => by simp [left, right] at apart
  simp [same, matched]

/-- Values that are not both numbers are equal as keys are. Of two numbers, equal keys are equal numbers, and equal
numbers are equal keys if both stand behind their floating-point numbers or neither does. -/
theorem sameKeyIff (left : ∀ x, a = .float x → x.isNaN = false) (right : ∀ x, b = .float x → x.isNaN = false) :
    a.sameKey b = true ↔ a.equals b = true ∧ a.Matched b := by
  have turned {p : Prop} : p ∧ b.Matched a ↔ p ∧ a.Matched b := and_congr_right fun _ => ⟨matchedSymm, matchedSymm⟩
  rcases numberCases a with none | ⟨n, rfl⟩ | ⟨x, rfl⟩ | ⟨d, rfl⟩
  · exact notNumbers (.inl none)
  · rcases numberCases b with none | ⟨m, rfl⟩ | ⟨y, rfl⟩ | ⟨e, rfl⟩
    · exact notNumbers (.inr none)
    · simpa [sameKey, equals, numberKey?, asFloat?, compare] using integers n m
    · simpa [sameKey, equals, numberKey?, asFloat?, compare] using integerFloat n y
    · simpa [sameKey, equals, numberKey?, asFloat?, compare] using integerDecimal n e
  · rcases numberCases b with none | ⟨m, rfl⟩ | ⟨y, rfl⟩ | ⟨e, rfl⟩
    · exact notNumbers (.inr none)
    · have pair := integerFloat m x
      rw [eq_comm, Binary64.compareComm, turned] at pair
      simpa [sameKey, equals, numberKey?, asFloat?, compare] using pair
    · simpa [sameKey, equals, numberKey?, asFloat?, compare] using floats (left x rfl) (right y rfl)
    · have pair := decimalFloat e (left x rfl)
      rw [eq_comm, Binary64.compareComm, turned] at pair
      simpa [sameKey, equals, numberKey?, asFloat?, compare] using pair
  · rcases numberCases b with none | ⟨m, rfl⟩ | ⟨y, rfl⟩ | ⟨e, rfl⟩
    · exact notNumbers (.inr none)
    · have pair := integerDecimal m d
      rw [eq_comm, Decimal.compareComm, turned] at pair
      simpa [sameKey, equals, numberKey?, asFloat?, compare] using pair
    · simpa [sameKey, equals, numberKey?, asFloat?, compare] using decimalFloat d (right y rfl)
    · simpa [sameKey, equals, numberKey?, asFloat?, compare] using decimals d e

theorem sameKeyIffOfPower : (∀ x, Value.float (Binary64.ofInt (2 ^ 53)) = .float x → x.isNaN = false) ∧
    (∀ x, Value.integer 9007199254740992 = .float x → x.isNaN = false) ∧
    (Value.float (Binary64.ofInt (2 ^ 53))).sameKey (.integer 9007199254740992) = true := by
  have float : ∀ x, Value.float (Binary64.ofInt (2 ^ 53)) = .float x → x.isNaN = false := by
    rintro x ⟨⟩
    exact Binary64.ofUnitsNumber _ _ _
  have whole : ∀ x, Value.integer 9007199254740992 = .float x → x.isNaN = false := nofun
  refine ⟨float, whole, (sameKeyIff float whole).mpr ⟨by decide +kernel, ?_⟩⟩
  rw [matchedIff rfl rfl]
  decide +kernel

/- The first whole number that no floating-point number equals, and a number of one place written with more. -/
theorem equalsApart :
    ((Value.integer 9007199254740993).equals (.float (Binary64.ofInt (2 ^ 53))) = true ∧
      (Value.integer 9007199254740993).sameKey (.float (Binary64.ofInt (2 ^ 53))) = false ∧
      (distinct [.integer 9007199254740993, .float (Binary64.ofInt (2 ^ 53))]).length = 2) ∧
    (Value.decimal ⟨false, 59 * 10 ^ 23, 24, by decide, by decide⟩).equals
        (.decimal ⟨false, 59, 1, by decide, by decide⟩) = true ∧
      (Value.decimal ⟨false, 59 * 10 ^ 23, 24, by decide, by decide⟩).sameKey
        (.decimal ⟨false, 59, 1, by decide, by decide⟩) = false := by
  decide +kernel

end Value

end SymbolicQuery
