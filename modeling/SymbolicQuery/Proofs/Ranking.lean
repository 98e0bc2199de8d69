import SymbolicQuery.Query.Execute
import SymbolicQuery.Proofs.Keying

/-! The order of values. Two exact numbers are compared by the number itself, and a number is compared with a floating-point
number through its nearest one, so there are two orders. Each is an order on its own; together they are one as long as no
floating-point number lies between exact numbers that the two orders arrange differently. -/
namespace SymbolicQuery

theorem Decimal.comparePlaces (d e : Decimal) : d.compare e = Ord.compare (d.inPlaces 28) (e.inPlaces 28) := by
  have room : max d.scale e.scale ≤ 28 := Nat.max_le.mpr ⟨d.scaleLe, e.scaleLe⟩
  have positive := tenPos (28 - max d.scale e.scale)
  unfold compare
  rw [inMorePlaces (Nat.le_max_left _ _) room, inMorePlaces (Nat.le_max_right _ _) room]
  simp only [Ord.compare, compareOfLessAndEq, Int.mul_lt_mul_right positive,
    Int.mul_eq_mul_right_iff (Int.ne_of_gt positive)]

namespace Binary64

variable {x y : Binary64}

def place? (x : Binary64) : Option Int :=
  if x.isNaN then none else some (if x.negative then -(x.code : Int) else x.code)

theorem placeOf (number : x.isNaN = false) : ∃ i, x.place? = some i :=
  ⟨_, if_neg (Bool.eq_false_iff.mp number)⟩

theorem comparePlaces (x y : Binary64) :
    x.compare y = x.place?.bind fun i => y.place?.map fun j => Ord.compare i j := by
  unfold compare place?
  cases x.isNaN <;> cases y.isNaN <;> rfl

theorem addNumber (left : x.isNaN = false) (right : y.isNaN = false) (sign : x.negative = y.negative) :
    (x.add y).isNaN = false := by
  unfold add onNumbers
  simp only [left, right, sign, Bool.false_eq_true, if_false, bne_self_eq_false, Bool.and_false]
  split
  · exact left
  · split
    · exact right
    · exact ofUnitsNumber _ _ _

theorem mulComm (left : x.isNaN = false) (right : y.isNaN = false) : x.mul y = y.mul x := by
  unfold mul onNumbers
  simp only [left, right, Bool.false_eq_true, if_false, bne_comm (a := x.negative), Bool.or_comm x.isInfinite,
    Bool.or_comm x.isZero, Nat.mul_comm x.units]

theorem divByFinite (number : x.isNaN = false) (finite : y.isFinite = true) (nonzero : y.isZero = false) :
    (x.div y).isNaN = false ∧ (x.div y).negative = (x.negative != y.negative) := by
  unfold div onNumbers
  simp only [number, finiteNumber finite, finiteBounded finite, nonzero, Bool.false_eq_true, if_false]
  split
  · exact ⟨rfl, rfl⟩
  · exact ⟨ofUnitsNumber _ _ _, rfl⟩

theorem roundNumber (number : x.isNaN = false) : x.round.isNaN = false := by
  unfold round
  split
  · exact ofUnitsNumber _ _ _
  · exact number

theorem ofNatBounded {n : Nat} (bound : n < 2 ^ 95) : (ofNat n).isFinite = true :=
  decide_eq_true (roundedWhole bound).1

end Binary64

namespace Decimal

variable {w u : Binary64}

theorem magnitudeNumber (whole : w.isNaN = false) (plus : w.negative = false) (finite : u.isFinite = true)
    (nonzero : u.isZero = false) (sign : u.negative = false) {r : Binary64} (rest : r.isNaN = false)
    (restPlus : r.negative = false) :
    ((((w.add (r.div u)).mul u).round).div u).isNaN = false := by
  obtain ⟨fraction, signs⟩ := Binary64.divByFinite rest finite nonzero
  have sum : (w.add (r.div u)).isNaN = false := by
    refine Binary64.addNumber whole fraction (plus.trans ?_)
    rw [signs, restPlus, sign]
    rfl
  have product : ((w.add (r.div u)).mul u).isNaN = false := by
    rw [Binary64.mulComm sum (Binary64.finiteNumber finite)]
    exact Binary64.mulNumber finite nonzero sum
  exact (Binary64.divByFinite (Binary64.roundNumber product) finite nonzero).1

theorem toBinaryNumber (d : Decimal) : d.toBinary.isNaN = false := by
  have signed {x : Binary64} (number : x.isNaN = false) (negative : Bool) :
      (if negative then x.neg else x).isNaN = false := by
    split
    · exact number
    · exact number
  have whole (n : Nat) : (Binary64.ofNat n).isNaN = false := Binary64.ofUnitsNumber _ _ _
  have room : 10 ^ d.scale < 2 ^ 95 :=
    Nat.lt_of_le_of_lt (Nat.pow_le_pow_right (by decide) d.scaleLe) (by decide)
  have positive : 0 < 10 ^ d.scale := Nat.pow_pos (by decide)
  unfold toBinary
  dsimp only
  generalize 10 ^ d.scale = power at *
  have nonzero : (Binary64.ofNat power).isZero = false :=
    Bool.eq_false_iff.mpr fun zero => Nat.ne_of_gt positive ((Binary64.ofNatZero room).mp zero)
  split
  · exact signed (whole _) _
  · refine signed ?_ _
    split
    · exact whole _
    · exact magnitudeNumber (whole _) rfl (Binary64.ofNatBounded room) nonzero rfl (whole _) rfl

end Decimal

namespace Value

variable {a b c v : Value} {i j k : Int}

def scaled? : Value → Option Int
  | .integer n => some (n.toInt * 10 ^ 28)
  | .decimal d => some (d.inPlaces 28)
  | _ => none

def rounded? (v : Value) : Option Int := v.asFloat?.bind Binary64.place?

theorem compareScaled (left : a.scaled? = some i) (right : b.scaled? = some j) : a.compare b = some (Ord.compare i j) := by
  have scaled (n m : Int64) :
      Ord.compare n.toInt m.toInt = Ord.compare (n.toInt * 10 ^ 28) (m.toInt * 10 ^ 28) := by
    have positive : (0 : Int) < 10 ^ 28 := by decide
    simp only [Ord.compare, compareOfLessAndEq, Int.mul_lt_mul_right positive,
      Int.mul_eq_mul_right_iff (Int.ne_of_gt positive)]
  cases a <;> simp only [scaled?, Option.some.injEq, reduceCtorEq] at left <;>
    cases b <;> simp only [scaled?, Option.some.injEq, reduceCtorEq] at right <;>
    subst left right <;> simp only [compare, Decimal.comparePlaces, Decimal.ofInt64Places, scaled]

theorem floatOf {x : Binary64} (number : v.asFloat? = some x) (apart : v.scaled? = none) : v = .float x := by
  cases v <;> simp [asFloat?, scaled?] at number apart
  rw [number]

theorem compareRounded (left : a.rounded? = some i) (right : b.rounded? = some j)
    (apart : a.scaled? = none ∨ b.scaled? = none) : a.compare b = some (Ord.compare i j) := by
  obtain ⟨x, number, place⟩ := Option.bind_eq_some_iff.mp left
  obtain ⟨y, number', place'⟩ := Option.bind_eq_some_iff.mp right
  have near : x.compare y = some (Ord.compare i j) := by
    rw [Binary64.comparePlaces, place, place']
    rfl
  rw [← near]
  rcases apart with apart | apart
  · rw [floatOf number apart]
    cases b <;> simp only [asFloat?, Option.some.injEq, reduceCtorEq] at number' <;> rw [← number'] <;> rfl
  · rw [floatOf number' apart]
    cases a <;> simp only [asFloat?, Option.some.injEq, reduceCtorEq] at number <;> rw [← number] <;> rfl

theorem compareSwap (a b : Value) : b.compare a = (a.compare b).map Ordering.swap := by
  have floats (x y : Binary64) : y.compare x = (x.compare y).map Ordering.swap := by
    rw [Binary64.comparePlaces, Binary64.comparePlaces]
    cases x.place? with
    | none => cases y.place? <;> rfl
    | some i =>
      cases y.place? with
      | none => rfl
      | some j => exact congrArg some Std.OrientedOrd.eq_swap
  have decimals (d e : Decimal) : e.compare d = (d.compare e).swap := by
    rw [Decimal.comparePlaces, Decimal.comparePlaces]
    exact Std.OrientedOrd.eq_swap
  cases a <;> cases b <;> simp only [compare, asFloat?, Option.map_some, Option.map_none, Option.some.injEq,
    Ordering.swap]
  all_goals first
    | exact floats _ _
    | exact decimals _ _
    | exact Std.OrientedOrd.eq_swap

def ranked : Value → Bool
  | .null | .integer _ | .decimal _ => true
  | .float x => !x.isNaN
  | _ => false

def AtMost (a b : Value) : Prop := (a.compare b).any Ordering.isLE = true

instance : Decidable (a.AtMost b) := inferInstanceAs (Decidable (_ = true))

/-- Whether three values in a row are in order without the middle one, the outer two equal only if all are. -/
def Chained (a b c : Value) : Prop := a.AtMost b → b.AtMost c →
  a.AtMost c ∧ (a.compare c = some .eq → a.compare b = some .eq ∧ b.compare c = some .eq)

instance : Decidable (Chained a b c) := inferInstanceAs (Decidable (_ → _ → _))

def nearest (v : Value) : Value :=
  match v.asFloat? with
  | some x => .float x
  | none => v

/-- Whether exact numbers around a third value stand to each other as their nearest floating-point numbers do. -/
def Parted (a b c : Value) : Prop := a.AtMost b → b.AtMost c → a.compare c = a.nearest.compare c.nearest

instance : Decidable (Parted a b c) := inferInstanceAs (Decidable (_ → _ → _))

theorem intOrders {l m : Int} :
    Ord.compare i j = Ord.compare l m ↔ (i ≤ j ↔ l ≤ m) ∧ (j ≤ i ↔ m ≤ l) := by
  rw [← Int.isLE_compare, ← Int.isLE_compare, ← Int.isGE_compare, ← Int.isGE_compare]
  cases Ord.compare i j <;> cases Ord.compare l m <;> decide

theorem atMostIff (known : a.compare b = some (Ord.compare i j)) : a.AtMost b ↔ i ≤ j := by
  rw [AtMost, known, Option.any_some, Int.isLE_compare]

theorem equalIff (known : a.compare b = some (Ord.compare i j)) : a.compare b = some .eq ↔ i = j := by
  rw [known, Option.some.injEq, compare_eq_iff_eq]

theorem chainedOf (first : a.compare b = some (Ord.compare i j)) (second : b.compare c = some (Ord.compare j k))
    (outer : a.compare c = some (Ord.compare i k)) : Chained a b c := by
  rw [Chained, atMostIff first, atMostIff second, atMostIff outer, equalIff first, equalIff second, equalIff outer]
  omega

theorem nullCompare (b : Value) : Value.null.compare b = some (if b = .null then .eq else .lt) := by
  cases b <;> rfl

theorem nullAtMost (b : Value) : Value.null.AtMost b := by
  rw [AtMost, nullCompare]
  split <;> rfl

theorem atMostNull : a.AtMost .null ↔ a = .null := by
  cases a <;> simp [AtMost, compare]

theorem chainedNull (null : a = .null ∨ b = .null ∨ c = .null) : Chained a b c := by
  have start {b c : Value} : Chained .null b c := by
    intro _ second
    refine ⟨nullAtMost c, fun same => ?_⟩
    obtain rfl : c = .null := by
      rw [nullCompare] at same
      split at same
      · assumption
      · cases same
    obtain rfl := atMostNull.mp second
    exact ⟨rfl, rfl⟩
  intro first second
  rcases null with rfl | rfl | rfl
  · exact start first second
  · obtain rfl := atMostNull.mp first
    exact start first second
  · obtain rfl := atMostNull.mp second
    obtain rfl := atMostNull.mp first
    exact start first second

theorem orderThen {α : Type} [Ord α] [Std.TransOrd α] {x y z : α} {o p : Ordering} (first : Ord.compare x y = o)
    (second : Ord.compare y z = p) (le : o.isLE = true) (le' : p.isLE = true) : Ord.compare x z = o.then p := by
  cases o with
  | lt => exact Std.TransCmp.lt_of_lt_of_isLE first (second ▸ le')
  | eq => exact (Std.TransCmp.congr_left first).trans second
  | gt => cases le

theorem compareKinds {o : Ordering} (known : a.compare b = some o) (exact : ∀ x, a ≠ .float x)
    (exact' : ∀ x, b ≠ .float x) (present : a ≠ .null) (present' : b ≠ .null) :
    (∃ i j, a.scaled? = some i ∧ b.scaled? = some j ∧ Ord.compare i j = o) ∨
      (∃ s t, a = .string s ∧ b = .string t ∧ Ord.compare s t = o) ∨
      ∃ p q, a = .boolean p ∧ b = .boolean q ∧ Ord.compare p q = o := by
  cases left : a.scaled? with
  | some i =>
    cases right : b.scaled? with
    | some j =>
      rw [compareScaled left right] at known
      exact .inl ⟨i, j, rfl, rfl, Option.some.inj known⟩
    | none => cases a <;> cases b <;> simp_all [compare, scaled?, asFloat?]
  | none => cases a <;> cases b <;> simp_all [compare, scaled?, asFloat?]

theorem nullThen {o p : Ordering} (first : Value.null.compare b = some o) (second : b.compare c = some p)
    (le : p.isLE = true) : Value.null.compare c = some (o.then p) := by
  by_cases absent : b = .null
  · subst absent
    cases first
    exact second
  · have present : c ≠ .null := by
      rintro rfl
      exact absent (atMostNull.mp (by rw [AtMost, second]; exact le))
    rw [nullCompare, if_neg absent] at first
    cases first
    rw [nullCompare, if_neg present]
    rfl

theorem compareThen {o p : Ordering} (exact : ∀ x, a ≠ .float x) (exact' : ∀ x, b ≠ .float x)
    (exact'' : ∀ x, c ≠ .float x) (first : a.compare b = some o) (second : b.compare c = some p)
    (le : o.isLE = true) (le' : p.isLE = true) : a.compare c = some (o.then p) := by
  by_cases absent : a = .null
  · subst absent
    exact nullThen first second le'
  have present : b ≠ .null := by
    rintro rfl
    exact absent (atMostNull.mp (by rw [AtMost, first]; exact le))
  have present' : c ≠ .null := by
    rintro rfl
    exact present (atMostNull.mp (by rw [AtMost, second]; exact le'))
  rcases compareKinds first exact exact' absent present with ⟨i, j, left, right, known⟩ | ⟨s, t, rfl, rfl, known⟩ |
    ⟨s, t, rfl, rfl, known⟩ <;>
  rcases compareKinds second exact' exact'' present present' with ⟨i', j', left', right', known'⟩ |
    ⟨s', t', same, rfl, known'⟩ | ⟨s', t', same, rfl, known'⟩
  · cases right.symm.trans left'
    exact (compareScaled left right').trans (congrArg some (orderThen known known' le le'))
  · cases same ▸ right
  · cases same ▸ right
  · cases left'
  · cases same
    exact congrArg some (orderThen known known' le le')
  · cases same
  · cases left'
  · cases same
  · cases same
    exact congrArg some (orderThen known known' le le')
section Kinds

variable {l m : Int} {f : Value}

theorem exactRounded (exact : v.scaled? = some i) : ∃ j, v.rounded? = some j := by
  have place {x : Binary64} (float : v.asFloat? = some x) (number : x.isNaN = false) : ∃ j, v.rounded? = some j := by
    rw [rounded?, float]
    exact Binary64.placeOf number
  cases v <;> simp only [scaled?, reduceCtorEq] at exact
  · exact place rfl (Binary64.ofUnitsNumber _ _ _)
  · exact place rfl (Decimal.toBinaryNumber _)

theorem rankedCases (known : v.ranked = true) (present : v ≠ .null) :
    (∃ i j, v.scaled? = some i ∧ v.rounded? = some j) ∨
      ∃ x j, v = .float x ∧ v.scaled? = none ∧ v.rounded? = some j := by
  cases v <;> simp only [ranked, Bool.not_eq_true', Bool.false_eq_true] at known
  · exact absurd rfl present
  · exact .inl ⟨_, _, rfl, (exactRounded rfl).choose_spec⟩
  · exact .inr ⟨_, _, rfl, rfl, (Binary64.placeOf known).choose_spec⟩
  · exact .inl ⟨_, _, rfl, (exactRounded rfl).choose_spec⟩

theorem nearestRounded (known : v.rounded? = some j) : v.nearest.rounded? = some j ∧ v.nearest.scaled? = none := by
  obtain ⟨x, number, place⟩ := Option.bind_eq_some_iff.mp known
  rw [nearest, number]
  exact ⟨place, rfl⟩

theorem chainedRounded (near : a.rounded? = some i) (near' : b.rounded? = some j) (near'' : c.rounded? = some k)
    (first : a.scaled? = none ∨ b.scaled? = none) (second : b.scaled? = none ∨ c.scaled? = none)
    (outer : a.scaled? = none ∨ c.scaled? = none) : Chained a b c :=
  chainedOf (compareRounded near near' first) (compareRounded near' near'' second) (compareRounded near near'' outer)

theorem partedIff (first : a.scaled? = some i) (near : a.rounded? = some j) (last : c.scaled? = some k)
    (near' : c.rounded? = some l) (float : f.scaled? = none) (place : f.rounded? = some m) :
    Parted a f c ↔ (j ≤ m → m ≤ l → (i ≤ k ↔ j ≤ l) ∧ (k ≤ i ↔ l ≤ j)) := by
  -- Exact numbers around a floating-point number, and the three ways in which the three can
  -- follow one another.
  obtain ⟨rounded, inexact⟩ := nearestRounded near
  obtain ⟨rounded', -⟩ := nearestRounded near'
  rw [Parted, atMostIff (compareRounded near place (.inr float)), atMostIff (compareRounded place near' (.inl float)),
    compareScaled first last, compareRounded rounded rounded' (.inl inexact), Option.some.injEq, intOrders]

theorem partedOf (first : a.scaled? = some i) (near : a.rounded? = some j) (last : c.scaled? = some k)
    (near' : c.rounded? = some l) (float : f.scaled? = none) (place : f.rounded? = some m)
    (chained : Chained a f c) (turned : Chained c f a) : Parted a f c := by
  have left := compareRounded near place (.inr float)
  have left' := compareRounded place near (.inl float)
  have right := compareRounded place near' (.inl float)
  have right' := compareRounded near' place (.inr float)
  have outer := compareScaled first last
  have outer' := compareScaled last first
  rw [Chained, atMostIff left, atMostIff right, atMostIff outer, equalIff left, equalIff right, equalIff outer] at chained
  rw [Chained, atMostIff right', atMostIff left', atMostIff outer', equalIff right', equalIff left',
    equalIff outer'] at turned
  rw [partedIff first near last near' float place]
  omega

theorem chainedAround (first : a.scaled? = some i) (near : a.rounded? = some j) (last : c.scaled? = some k)
    (near' : c.rounded? = some l) (float : f.scaled? = none) (place : f.rounded? = some m)
    (parted : Parted a f c) (turned : Parted c f a) : Chained a f c ∧ Chained f a c ∧ Chained a c f := by
  have left := compareRounded near place (.inr float)
  have left' := compareRounded place near (.inl float)
  have right := compareRounded place near' (.inl float)
  have right' := compareRounded near' place (.inr float)
  have outer := compareScaled first last
  rw [partedIff first near last near' float place] at parted
  rw [partedIff last near' first near float place] at turned
  refine ⟨?_, ?_, ?_⟩
  · rw [Chained, atMostIff left, atMostIff right, atMostIff outer, equalIff left, equalIff right, equalIff outer]
    omega
  · rw [Chained, atMostIff left', atMostIff outer, atMostIff right, equalIff left', equalIff outer, equalIff right]
    omega
  · rw [Chained, atMostIff outer, atMostIff right', atMostIff left, equalIff outer, equalIff right', equalIff left]
    omega

theorem comparesRanked (left : a.ranked = true) (right : b.ranked = true) : ∃ o, a.compare b = some o := by
  by_cases absent : a = .null
  · exact ⟨_, absent ▸ nullCompare b⟩
  by_cases absent' : b = .null
  · exact ⟨_, by rw [compareSwap, absent', nullCompare]; rfl⟩
  rcases rankedCases left absent with ⟨i, j, exact, near⟩ | ⟨x, j, -, inexact, near⟩
  · rcases rankedCases right absent' with ⟨k, l, exact', near'⟩ | ⟨y, l, -, inexact', near'⟩
    · exact ⟨_, compareScaled exact exact'⟩
    · exact ⟨_, compareRounded near near' (.inr inexact')⟩
  · rcases rankedCases right absent' with ⟨k, l, -, near'⟩ | ⟨y, l, -, -, near'⟩ <;>
      exact ⟨_, compareRounded near near' (.inl inexact)⟩

end Kinds

/-- Null and numbers always compare, and the other way around if they are swapped. They are in one order exactly if no
floating-point number stands between two exact numbers that compare otherwise than their nearest floating-point numbers. -/
theorem compareOrders {vs : List Value} (ranks : ∀ v ∈ vs, v.ranked = true) :
    (∀ a ∈ vs, ∀ b ∈ vs, ∃ o, a.compare b = some o ∧ b.compare a = some o.swap) ∧
    ((∀ a ∈ vs, ∀ b ∈ vs, ∀ c ∈ vs, Chained a b c) ↔
      ∀ a ∈ vs, ∀ c ∈ vs, a.scaled?.isSome = true → c.scaled?.isSome = true →
        ∀ x, .float x ∈ vs → Parted a (.float x) c) := by
  refine ⟨fun a inside b inside' => ?_, fun chained a inside c inside' first last x between => ?_,
    fun parted a first b second c third => ?_⟩
  · obtain ⟨o, known⟩ := comparesRanked (ranks a inside) (ranks b inside')
    exact ⟨o, known, by rw [compareSwap, known]; rfl⟩
  · obtain ⟨i, exact⟩ := Option.isSome_iff_exists.mp first
    obtain ⟨k, exact'⟩ := Option.isSome_iff_exists.mp last
    obtain ⟨j, near⟩ := exactRounded exact
    obtain ⟨l, near'⟩ := exactRounded exact'
    have number : x.isNaN = false := by simpa [ranked] using ranks _ between
    obtain ⟨m, place⟩ := Binary64.placeOf number
    exact partedOf exact near exact' near' rfl place (chained a inside _ between c inside')
      (chained c inside' _ between a inside)
  · have around {a c : Value} {x : Binary64} {i j k l m : Int} (inside : a ∈ vs) (inside' : c ∈ vs)
        (between : .float x ∈ vs) (exact : a.scaled? = some i) (near : a.rounded? = some j)
        (exact' : c.scaled? = some k) (near' : c.rounded? = some l) (place : (Value.float x).rounded? = some m) :=
      have left : a.scaled?.isSome = true := exact ▸ rfl
      have right : c.scaled?.isSome = true := exact' ▸ rfl
      chainedAround exact near exact' near' rfl place (parted a inside c inside' left right x between)
        (parted c inside' a inside right left x between)
    by_cases absent : a = .null ∨ b = .null ∨ c = .null
    · exact chainedNull absent
    obtain ⟨some, some', some''⟩ : a ≠ .null ∧ b ≠ .null ∧ c ≠ .null := by simpa only [not_or] using absent
    -- each of the three is exact or a floating-point number, and only a single floating-point number can stand
    -- wrong
    rcases rankedCases (ranks a first) some with ⟨i, j, exact, near⟩ | ⟨x, j, rfl, inexact, near⟩ <;>
    rcases rankedCases (ranks b second) some' with ⟨k, l, exact', near'⟩ | ⟨y, l, rfl, inexact', near'⟩ <;>
    rcases rankedCases (ranks c third) some'' with ⟨m, n, exact'', near''⟩ | ⟨z, n, rfl, inexact'', near''⟩
    · exact chainedOf (compareScaled exact exact') (compareScaled exact' exact'') (compareScaled exact exact'')
    · exact (around first second third exact near exact' near' near'').2.2
    · exact (around first third second exact near exact'' near'' near').1
    · exact chainedRounded near near' near'' (.inr inexact') (.inl inexact') (.inr inexact'')
    · exact (around second third first exact' near' exact'' near'' near).2.1
    · exact chainedRounded near near' near'' (.inl inexact) (.inr inexact'') (.inl inexact)
    · exact chainedRounded near near' near'' (.inl inexact) (.inl inexact') (.inl inexact)
    · exact chainedRounded near near' near'' (.inl inexact) (.inl inexact') (.inl inexact)

/- Whole numbers that share a floating-point number stay in order beside one that does not stand between them. -/
theorem compareOrdersOfNeighbours :
    let vs : List Value := [.integer 9007199254740993, .float (Binary64.ofRatio false 1 2), .null,
      .integer 9007199254740992, .decimal ⟨false, 250, 2, by decide, by decide⟩]
    (∀ v ∈ vs, v.ranked = true) ∧ (∀ a ∈ vs, ∀ b ∈ vs, ∃ o, a.compare b = some o ∧ b.compare a = some o.swap) ∧
      ∀ a ∈ vs, ∀ b ∈ vs, ∀ c ∈ vs, Chained a b c := by
  intro vs
  have ranks : ∀ v ∈ vs, v.ranked = true := by decide +kernel
  have parted : ∀ a ∈ vs, ∀ c ∈ vs, ∀ v ∈ vs, a.scaled?.isSome = true → c.scaled?.isSome = true →
      v.scaled? = none → Parted a v c := by decide +kernel
  have orders := compareOrders ranks
  exact ⟨ranks, orders.1, orders.2.mpr fun a inside c inside' first last x between =>
    parted a inside c inside' _ between first last rfl⟩

/- Two whole numbers share the floating-point number that stands between them. They are equal to it and not to each
other, and a sort that meets it between them leaves the larger one first. -/
theorem compareUnordered :
    let a : Value := .integer 9007199254740993
    let b : Value := .float (Binary64.ofInt (2 ^ 53))
    let c : Value := .integer 9007199254740992
    let p : Param := ⟨0, "x", .any⟩
    let key : Query.KeyFunction := ⟨⟨⟨[p], .parameter 0 p⟩, rfl⟩, false⟩
    (∀ v ∈ [a, b, c], v.ranked = true) ∧ a.AtMost b ∧ b.AtMost c ∧ ¬ a.AtMost c ∧
      (Query.sort [key] [a, b, c]).toOption = some [a, b, c] := by
  decide +kernel

end Value

end SymbolicQuery
