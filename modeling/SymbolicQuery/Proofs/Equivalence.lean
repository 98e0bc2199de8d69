import Mathlib.Data.List.Forall2
import Mathlib.Data.List.Nodup
import Mathlib.Data.List.Perm.Subperm
import SymbolicQuery.Value.Key
import SymbolicQuery.Proofs.Documents

/-! The equality of keys is an equivalence on values whose objects name their members apart. Numbers are one key by their
canonical form, sequences item by item, and objects name by name: two objects of as many members have the same names if
those of the one are among those of the other. -/
namespace SymbolicQuery

theorem Fields.getOne {α : Type} {fields : Fields α} {name : String} {x y : α} (apart : fields.names.Nodup)
    (inside : (name, x) ∈ fields) (got : fields.get? name = some y) : x = y :=
  Option.some.inj ((getApart apart inside).symm.trans got)

theorem Fields.nameInside {α : Type} {fields : Fields α} {name : String} :
    name ∈ fields.names ↔ ∃ x, (name, x) ∈ fields := by
  simp [Fields.names]

namespace Value

variable {a b c v w : Value}

def parts : Value → List Value
  | .array items => items
  | .object members => members.map (·.2)
  | .grouping key elements => key :: elements
  | _ => []

theorem partSize (inside : w ∈ v.parts) : sizeOf w < sizeOf v := by
  cases v <;> simp only [parts, List.mem_cons, List.mem_map, List.not_mem_nil] at inside
  case array items =>
    have := List.sizeOf_lt_of_mem inside
    simp
    omega
  case object members =>
    obtain ⟨m, member, rfl⟩ := inside
    have := List.sizeOf_lt_of_mem member
    obtain ⟨name, u⟩ := m
    simp at this ⊢
    omega
  case grouping key elements =>
    rcases inside with rfl | member
    · simp
      omega
    · have := List.sizeOf_lt_of_mem member
      simp
      omega

theorem partsInduction {P : Value → Prop} (step : ∀ v, (∀ w ∈ v.parts, P w) → P v) (v : Value) : P v :=
  step v fun w _ => partsInduction step w
termination_by sizeOf v
decreasing_by exact partSize (by assumption)

theorem apartAllIff {vs : List Value} : apartAll vs = true ↔ ∀ v ∈ vs, v.apart = true := by
  induction vs with
  | nil => simp [apartAll]
  | cons v rest ih => simp [apartAll, ih]

theorem apartMembersIff {members : Fields Value} : apartMembers members = true ↔ ∀ m ∈ members, m.2.apart = true := by
  induction members with
  | nil => simp [apartMembers]
  | cons m rest ih => simp [apartMembers, ih]

theorem apartParts (apart : v.apart = true) (inside : w ∈ v.parts) : w.apart = true := by
  cases v <;> simp only [parts, List.mem_cons, List.mem_map, List.not_mem_nil] at inside
  case array items => exact apartAllIff.mp apart w inside
  case object members =>
    obtain ⟨m, member, rfl⟩ := inside
    exact apartMembersIff.mp (Bool.and_eq_true_iff.mp apart).2 m member
  case grouping key elements =>
    obtain ⟨first, rest⟩ := Bool.and_eq_true_iff.mp apart
    rcases inside with rfl | member
    · exact first
    · exact apartAllIff.mp rest w member

theorem apartNames {members : Fields Value} (apart : (Value.object members).apart = true) : members.names.Nodup :=
  of_decide_eq_true (Bool.and_eq_true_iff.mp apart).1

-- a key is compared by the kinds of both sides, so the equations serve every lemma on a kind
attribute [local simp] sameKey sameKeys membersWithin numberKey?

theorem sameKeysIff {as bs : List Value} : sameKeys as bs = true ↔ List.Forall₂ (fun a b => a.sameKey b = true) as bs := by
  induction as generalizing bs with
  | nil => cases bs <;> simp
  | cons a as ih => cases bs <;> simp [ih]

theorem membersWithinIff {members other : Fields Value} : membersWithin members other = true ↔
    ∀ m ∈ members, ∃ w, other.get? m.1 = some w ∧ m.2.sameKey w = true := by
  induction members with
  | nil => simp
  | cons m rest ih =>
    obtain ⟨name, u⟩ := m
    rw [membersWithin, Bool.and_eq_true, ih, List.forall_mem_cons]
    refine and_congr_left fun _ => ?_
    cases other.get? name <;> simp

theorem sameNull : Value.null.sameKey b = true ↔ b = .null := by
  cases b <;> simp

theorem sameBoolean {p : Bool} : (Value.boolean p).sameKey b = true ↔ b = .boolean p := by
  cases b <;> simp only [sameKey, numberKey?, beq_iff_eq, boolean.injEq, reduceCtorEq, Bool.false_eq_true]
  exact eq_comm

theorem sameString {s : String} : (Value.string s).sameKey b = true ↔ b = .string s := by
  cases b <;> simp only [sameKey, numberKey?, beq_iff_eq, string.injEq, reduceCtorEq, Bool.false_eq_true]
  exact eq_comm

theorem sameNumber {k : NumberKey} (number : a.numberKey? = some k) :
    a.sameKey b = true ↔ b.numberKey? = some k := by
  cases a <;> simp only [numberKey?, Option.some.injEq, reduceCtorEq] at number <;> subst number <;>
    cases b <;>
    simp only [sameKey, numberKey?, beq_iff_eq, Option.some.injEq, reduceCtorEq, Bool.false_eq_true] <;>
    exact eq_comm

theorem sameArray {as : List Value} : (Value.array as).sameKey b = true ↔
    ∃ bs, b = .array bs ∧ List.Forall₂ (fun a b => a.sameKey b = true) as bs := by
  cases b <;> simp [sameKeysIff]

theorem sameObject {members : Fields Value} : (Value.object members).sameKey b = true ↔
    ∃ other, b = .object other ∧ members.length = other.length ∧
      ∀ m ∈ members, ∃ w, Fields.get? m.1 other = some w ∧ m.2.sameKey w = true := by
  cases b <;> simp [membersWithinIff]

theorem sameGrouping {key : Value} {as : List Value} : (Value.grouping key as).sameKey b = true ↔
    ∃ other bs, b = .grouping other bs ∧ key.sameKey other = true ∧
      List.Forall₂ (fun a b => a.sameKey b = true) as bs := by
  cases b <;> simp [sameKeysIff]

theorem kinds (v : Value) : v = .null ∨ (∃ p, v = .boolean p) ∨ (∃ s, v = .string s) ∨ (∃ k, v.numberKey? = some k) ∨
    (∃ as, v = .array as) ∨ (∃ members, v = .object members) ∨ ∃ key as, v = .grouping key as := by
  cases v <;> simp

theorem sameKeySelf (apart : v.apart = true) : v.sameKey v = true := by
  induction v using partsInduction with
  | step v ih =>
    have part {w : Value} (inside : w ∈ v.parts) : w.sameKey w = true := ih w inside (apartParts apart inside)
    rcases kinds v with rfl | ⟨p, rfl⟩ | ⟨s, rfl⟩ | ⟨k, number⟩ | ⟨as, rfl⟩ | ⟨members, rfl⟩ | ⟨key, as, rfl⟩
    · exact sameNull.mpr rfl
    · exact sameBoolean.mpr rfl
    · exact sameString.mpr rfl
    · exact (sameNumber number).mpr number
    · exact sameArray.mpr ⟨as, rfl, List.forall₂_same.mpr fun w inside => part inside⟩
    · exact sameObject.mpr ⟨members, rfl, rfl, fun m inside =>
        ⟨m.2, Fields.getApart (apartNames apart) inside, part (List.mem_map_of_mem inside)⟩⟩
    · exact sameGrouping.mpr ⟨key, as, rfl, part List.mem_cons_self,
        List.forall₂_same.mpr fun w inside => part (List.mem_cons_of_mem key inside)⟩

theorem eachInside {R S : Value → Value → Prop} {as bs : List Value} (same : List.Forall₂ R as bs)
    (each : ∀ a ∈ as, ∀ b ∈ bs, R a b → S a b) : List.Forall₂ S as bs := by
  induction same with
  | nil => exact .nil
  | cons head _ ih =>
    refine .cons (each _ List.mem_cons_self _ List.mem_cons_self head) (ih fun a inside b inside' => ?_)
    exact each a (List.mem_cons_of_mem _ inside) b (List.mem_cons_of_mem _ inside')

theorem turned {as bs : List Value} (same : List.Forall₂ (fun a b => a.sameKey b = true) as bs)
    (each : ∀ a ∈ as, ∀ b ∈ bs, a.sameKey b = true → b.sameKey a = true) :
    List.Forall₂ (fun a b => a.sameKey b = true) bs as :=
  List.Forall₂.flip (eachInside same each)

theorem namesWithin {members other : Fields Value} (apart : members.names.Nodup)
    (length : members.length = other.length) (within : ∀ name ∈ members.names, name ∈ other.names) :
    ∀ name ∈ other.names, name ∈ members.names := by
  -- Names that are apart and as many as others, all among them, are the others.
  have sub := List.subperm_of_subset apart within
  have few : other.names.length ≤ members.names.length := by simp [Fields.names, length]
  exact fun name inside => (sub.perm_of_length_le few).mem_iff.mpr inside

theorem sameKeySymm (left : a.apart = true) (right : b.apart = true) (same : a.sameKey b = true) :
    b.sameKey a = true := by
  induction a using partsInduction generalizing b with
  | step a ih =>
    have part {c d : Value} (inside : c ∈ a.parts) (inside' : d ∈ b.parts) (same : c.sameKey d = true) :
        d.sameKey c = true := ih c inside (apartParts left inside) (apartParts right inside') same
    rcases kinds a with rfl | ⟨p, rfl⟩ | ⟨s, rfl⟩ | ⟨k, number⟩ | ⟨as, rfl⟩ | ⟨members, rfl⟩ | ⟨key, as, rfl⟩
    · exact sameNull.mp same ▸ same
    · exact sameBoolean.mp same ▸ same
    · exact sameString.mp same ▸ same
    · exact (sameNumber ((sameNumber number).mp same)).mpr number
    · obtain ⟨bs, rfl, each⟩ := sameArray.mp same
      exact sameArray.mpr ⟨as, rfl, turned each fun c inside d inside' => part inside inside'⟩
    · obtain ⟨other, rfl, length, each⟩ := sameObject.mp same
      refine sameObject.mpr ⟨members, rfl, length.symm, fun m inside => ?_⟩
      obtain ⟨name, w⟩ := m
      have within : ∀ name ∈ Fields.names members, name ∈ Fields.names other := fun name there => by
        obtain ⟨u, there⟩ := Fields.nameInside.mp there
        obtain ⟨w, got, -⟩ := each (name, u) there
        exact Fields.nameInside.mpr ⟨w, Fields.getInside got⟩
      obtain ⟨u, there⟩ := Fields.nameInside.mp
        (namesWithin (apartNames left) length within name (Fields.nameInside.mpr ⟨w, inside⟩))
      obtain ⟨w', got, alike⟩ := each (name, u) there
      obtain rfl : w = w' := Fields.getOne (apartNames right) inside got
      exact ⟨u, Fields.getApart (apartNames left) there,
        part (List.mem_map_of_mem there) (List.mem_map_of_mem inside) alike⟩
    · obtain ⟨other, bs, rfl, first, each⟩ := sameGrouping.mp same
      refine sameGrouping.mpr ⟨key, as, rfl, part List.mem_cons_self List.mem_cons_self first, ?_⟩
      exact turned each fun c inside d inside' =>
        part (List.mem_cons_of_mem key inside) (List.mem_cons_of_mem other inside')

theorem chained {as bs cs : List Value} (first : List.Forall₂ (fun a b => a.sameKey b = true) as bs)
    (second : List.Forall₂ (fun b c => b.sameKey c = true) bs cs)
    (each : ∀ a ∈ as, ∀ b c, a.sameKey b = true → b.sameKey c = true → a.sameKey c = true) :
    List.Forall₂ (fun a c => a.sameKey c = true) as cs := by
  induction first generalizing cs with
  | nil =>
    cases second
    exact .nil
  | cons head _ ih =>
    cases second with
    | cons head' rest' =>
      refine .cons (each _ List.mem_cons_self _ _ head head') (ih rest' fun a inside => ?_)
      exact each a (List.mem_cons_of_mem _ inside)

theorem sameKeyTrans (first : a.sameKey b = true) (second : b.sameKey c = true) : a.sameKey c = true := by
  induction a using partsInduction generalizing b c with
  | step a ih =>
    have part {d : Value} (inside : d ∈ a.parts) (e f : Value) (first : d.sameKey e = true)
        (second : e.sameKey f = true) : d.sameKey f = true := ih d inside first second
    rcases kinds a with rfl | ⟨p, rfl⟩ | ⟨s, rfl⟩ | ⟨k, number⟩ | ⟨as, rfl⟩ | ⟨members, rfl⟩ | ⟨key, as, rfl⟩
    · exact sameNull.mp first ▸ second
    · exact sameBoolean.mp first ▸ second
    · exact sameString.mp first ▸ second
    · exact (sameNumber number).mpr ((sameNumber ((sameNumber number).mp first)).mp second)
    · obtain ⟨bs, rfl, each⟩ := sameArray.mp first
      obtain ⟨cs, rfl, each'⟩ := sameArray.mp second
      exact sameArray.mpr ⟨cs, rfl, chained each each' fun d inside => part inside⟩
    · obtain ⟨other, rfl, length, each⟩ := sameObject.mp first
      obtain ⟨last, rfl, length', each'⟩ := sameObject.mp second
      refine sameObject.mpr ⟨last, rfl, length.trans length', fun m inside => ?_⟩
      obtain ⟨w, got, alike⟩ := each m inside
      obtain ⟨u, got', alike'⟩ := each' (m.1, w) (Fields.getInside got)
      exact ⟨u, got', part (List.mem_map_of_mem inside) w u alike alike'⟩
    · obtain ⟨other, bs, rfl, head, each⟩ := sameGrouping.mp first
      obtain ⟨last, cs, rfl, head', each'⟩ := sameGrouping.mp second
      refine sameGrouping.mpr ⟨last, cs, rfl, part List.mem_cons_self _ _ head head', ?_⟩
      exact chained each each' fun d inside => part (List.mem_cons_of_mem key inside)

/-- One value but for what carries its numbers, of which the canonical forms alone are the same, and but for the order of
the members of its objects. -/
inductive OneKey : Value → Value → Prop where
  | null : OneKey .null .null
  | boolean {p : Bool} : OneKey (.boolean p) (.boolean p)
  | string {s : String} : OneKey (.string s) (.string s)
  | number {a b : Value} {k : NumberKey} (left : a.numberKey? = some k) (right : b.numberKey? = some k) : OneKey a b
  | array {as bs : List Value} (each : List.Forall₂ OneKey as bs) : OneKey (.array as) (.array bs)
  | object {members other ordered : Fields Value} (order : ordered.Perm other) (names : members.names = ordered.names)
      (each : List.Forall₂ OneKey (members.map (·.2)) (ordered.map (·.2))) : OneKey (.object members) (.object other)
  | grouping {key key' : Value} {as bs : List Value} (head : OneKey key key') (each : List.Forall₂ OneKey as bs) :
      OneKey (.grouping key as) (.grouping key' bs)

def counterpart (other : Fields Value) (m : String × Value) : String × Value := (m.1, (other.get? m.1).getD m.2)

theorem counterpartNames {members other : Fields Value} :
    Fields.names (members.map (counterpart other)) = members.names := List.map_map

theorem counterparts {members other : Fields Value} (apart : members.names.Nodup) (length : members.length = other.length)
    (each : ∀ m ∈ members, ∃ w, other.get? m.1 = some w ∧ m.2.sameKey w = true) :
    (members.map (counterpart other)).Perm other ∧ ∀ m ∈ members, m.2.sameKey (counterpart other m).2 = true := by
  have inside : ∀ m ∈ members, counterpart other m ∈ other ∧ m.2.sameKey (counterpart other m).2 = true := by
    intro m member
    obtain ⟨w, got, same⟩ := each m member
    simp only [counterpart, got, Option.getD_some]
    exact ⟨Fields.getInside got, same⟩
  refine ⟨?_, fun m member => (inside m member).2⟩
  have names : (Fields.names (members.map (counterpart other))).Nodup := by rwa [counterpartNames]
  have distinct : (members.map (counterpart other)).Nodup := names.of_map
  have within : members.map (counterpart other) ⊆ other := by
    intro o placed
    obtain ⟨m, member, rfl⟩ := List.mem_map.mp placed
    exact (inside m member).1
  exact (List.subperm_of_subset distinct within).perm_of_length_le (by simp [length])

theorem sameIsOne (apart : a.apart = true) (same : a.sameKey b = true) : OneKey a b := by
  induction a using partsInduction generalizing b with
  | step a ih =>
    have part {c d : Value} (inside : c ∈ a.parts) (same : c.sameKey d = true) : OneKey c d :=
      ih c inside (apartParts apart inside) same
    have items {as bs : List Value} (inside : ∀ c ∈ as, c ∈ a.parts)
        (each : List.Forall₂ (fun c d => c.sameKey d = true) as bs) : List.Forall₂ OneKey as bs :=
      eachInside each fun c member _ _ => part (inside c member)
    rcases kinds a with rfl | ⟨p, rfl⟩ | ⟨s, rfl⟩ | ⟨k, number⟩ | ⟨as, rfl⟩ | ⟨members, rfl⟩ | ⟨key, as, rfl⟩
    · exact sameNull.mp same ▸ .null
    · exact sameBoolean.mp same ▸ .boolean
    · exact sameString.mp same ▸ .string
    · exact .number number ((sameNumber number).mp same)
    · obtain ⟨bs, rfl, each⟩ := sameArray.mp same
      exact .array (items (fun c inside => inside) each)
    · obtain ⟨other, rfl, length, each⟩ := sameObject.mp same
      obtain ⟨order, same⟩ := counterparts (apartNames apart) length each
      refine .object order counterpartNames.symm (items (fun c inside => inside) ?_)
      rw [List.map_map, List.forall₂_map_left_iff, List.forall₂_map_right_iff]
      exact List.forall₂_same.mpr same
    · obtain ⟨other, bs, rfl, head, each⟩ := sameGrouping.mp same
      exact .grouping (part List.mem_cons_self head) (items (fun c inside => List.mem_cons_of_mem _ inside) each)

theorem oneIsSame (apart : b.apart = true) (one : OneKey a b) : a.sameKey b = true := by
  induction b using partsInduction generalizing a with
  | step b ih =>
    have part {c d : Value} (inside : d ∈ b.parts) (one : OneKey c d) : c.sameKey d = true :=
      ih d inside (apartParts apart inside) one
    have items {as bs : List Value} (inside : ∀ d ∈ bs, d ∈ b.parts) (each : List.Forall₂ OneKey as bs) :
        List.Forall₂ (fun c d => c.sameKey d = true) as bs :=
      eachInside each fun _ _ d member => part (inside d member)
    cases one with
    | null => exact sameNull.mpr rfl
    | boolean => exact sameBoolean.mpr rfl
    | string => exact sameString.mpr rfl
    | number left right => exact (sameNumber left).mpr right
    | array each => exact sameArray.mpr ⟨_, rfl, items (fun d inside => inside) each⟩
    | @object members other ordered order names each =>
      have alike := items (fun d inside => (order.map (·.2)).subset inside) each
      rw [Fields.names, Fields.names, ← List.forall₂_eq_eq_eq] at names
      rw [List.forall₂_map_left_iff, List.forall₂_map_right_iff] at names alike
      refine sameObject.mpr ⟨other, rfl, names.length_eq.trans order.length_eq, fun m inside => ?_⟩
      obtain ⟨i, h, rfl⟩ := List.getElem_of_mem inside
      have h' : i < ordered.length := names.length_eq ▸ h
      have name := (List.forall₂_iff_get.mp names).2 i h h'
      refine ⟨ordered[i].2, ?_, (List.forall₂_iff_get.mp alike).2 i h h'⟩
      refine Fields.getApart (apartNames apart) (order.subset ?_)
      exact (Prod.ext name rfl : (members[i].1, ordered[i].2) = ordered[i]) ▸ List.getElem_mem h'
    | grouping head each => exact sameGrouping.mpr ⟨_, _, rfl, part List.mem_cons_self head,
        items (fun d inside => List.mem_cons_of_mem _ inside) each⟩

/-- On values whose objects are maps, to be one key is an equivalence, and it is to be one value but for what carries
the numbers and for the order of members, at every depth. -/
theorem sameKeyEquivalence :
    Equivalence (fun a b : { v : Value // v.apart = true } => a.1.sameKey b.1 = true) ∧
      ∀ a b : { v : Value // v.apart = true }, a.1.sameKey b.1 = true ↔ OneKey a.1 b.1 :=
  ⟨⟨fun a => sameKeySelf a.2, fun {a b} => sameKeySymm a.2 b.2, sameKeyTrans⟩,
    fun a b => ⟨sameIsOne a.2, oneIsSame b.2⟩⟩

end Value

end SymbolicQuery
