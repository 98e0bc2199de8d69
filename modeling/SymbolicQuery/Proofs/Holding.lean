import SymbolicQuery.Ty.Infer
import SymbolicQuery.Value.Arithmetic
import SymbolicQuery.Value.Exchange
import SymbolicQuery.Value.Texts
import SymbolicQuery.Proofs.Result

/-! Values of a type. A decimal position holds decimals alone, or null: were a whole number let in
there, as it may be where a value is checked, arithmetic would leave the promoted type. Documents
have no decimals, so what their types accept is held; operators, conversions and member reads keep
to their static results. -/
namespace SymbolicQuery
open Results

namespace Ty

/-- A value is of a type, and decimals stand where the type says so. -/
inductive Holds : Ty → Value → Prop where
  | any {v} : Holds .any v
  | null {t} : Holds t .null
  | bool {b} : Holds .bool (.boolean b)
  | int {n} : Holds .int (.integer n)
  | float {x} : Holds .float (.float x)
  | whole {n} : Holds .float (.integer n)
  | decimal {d} : Holds .decimal (.decimal d)
  | string {s} : Holds .string (.string s)
  | object {o : ObjectType} {fields : List (String × Value)}
      (members : ∀ m ∈ o.members, ∀ v, Fields.get? m.name fields = some v → Holds m.ty v) :
      Holds (.object o) (.object fields)
  | sequence {item items} (each : ∀ v ∈ items, Holds item v) : Holds (.sequence item) (.array items)
  | grouping {key element k es} (under : Holds key k) (each : ∀ v ∈ es, Holds element v) :
      Holds (.grouping key element) (.grouping k es)

inductive DecimalFree : Ty → Prop where
  | any : DecimalFree .any
  | bool : DecimalFree .bool
  | int : DecimalFree .int
  | float : DecimalFree .float
  | string : DecimalFree .string
  | object {o : ObjectType} (members : ∀ m ∈ o.members, DecimalFree m.ty) : DecimalFree (.object o)
  | sequence {item} (each : DecimalFree item) : DecimalFree (.sequence item)

theorem acceptsMembersIff {ms : List Member} {fields : List (String × Value)} :
    acceptsMembers ms fields = true ↔
      ∀ m ∈ ms, ∀ v, Fields.get? m.name fields = some v → m.ty.accepts v = true := by
  induction ms with
  | nil => simp [acceptsMembers]
  | cons m rest ih =>
    rw [acceptsMembers, Bool.and_eq_true, ih, List.forall_mem_cons]
    refine and_congr ?_ Iff.rfl
    cases Fields.get? m.name fields <;> simp

theorem acceptsNull (t : Ty) : t.accepts .null = true := by
  cases t <;> rfl

theorem Holds.accepts {t : Ty} {v : Value} (holds : t.Holds v) : t.accepts v = true := by
  induction holds with
  | null => exact acceptsNull _
  | object _ ih => exact acceptsMembersIff.mpr ih
  | sequence _ ih =>
    rw [Ty.accepts]
    exact List.all_eq_true.mpr ih
  | grouping _ _ under each =>
    rw [Ty.accepts, under, Bool.true_and]
    exact List.all_eq_true.mpr each
  | any | bool | int | float | whole | decimal | string => rfl

theorem DecimalFree.holds {t : Ty} (free : t.DecimalFree) {v : Value} (accepted : t.accepts v = true) :
    t.Holds v := by
  induction free generalizing v with
  | any => exact .any
  | bool => cases v <;> first | exact .null | exact .bool | cases accepted
  | int => cases v <;> first | exact .null | exact .int | cases accepted
  | float => cases v <;> first | exact .null | exact .float | exact .whole | cases accepted
  | string => cases v <;> first | exact .null | exact .string | cases accepted
  | object _ ih =>
    cases v with
    | null => exact .null
    | object fields =>
      exact .object fun m inside v stored => ih m inside (acceptsMembersIff.mp accepted m inside v stored)
    | _ => cases accepted
  | sequence _ ih =>
    cases v with
    | null => exact .null
    | array items =>
      rw [Ty.accepts] at accepted
      exact .sequence fun v inside => ih (List.all_eq_true.mp accepted v inside)
    | _ => cases accepted

theorem declareFree {name : String} {members : List (String × Ty)} {anonymous : Bool}
    (each : ∀ m ∈ members, m.2.DecimalFree) :
    DecimalFree (.object (.declare name members anonymous)) := by
  refine .object fun m inside => ?_
  obtain ⟨p, given, rfl⟩ := List.mem_map.mp inside
  exact each p given

mutual

theorem unifyFree : {a : Ty} → (b : Ty) → a.DecimalFree → b.DecimalFree → (unify a b).DecimalFree
  | a, .sequence y, first, second => by
    unfold unify
    split
    · exact first
    · cases first with
      | sequence each => cases second with
        | sequence other => exact .sequence (unifyFree y each other)
      | _ => exact .any
  | a, .object ⟨_, members, _⟩, first, second => by
    unfold unify
    split
    · exact first
    · cases first with
      | object known => cases second with
        | object others =>
          refine declareFree (mergeFree members (Fields.eachOfList fun f given => ?_) others)
          obtain ⟨m, inside, rfl⟩ := List.mem_map.mp given
          exact known m inside
      | _ => exact .any
  | a, .any, first, _ | a, .bool, first, _ | a, .int, first, _ | a, .float, first, _
  | a, .decimal, first, _ | a, .string, first, _ | a, .grouping .., first, _
  | a, .function .., first, _ => by
    unfold unify
    split
    · exact first
    · cases first <;> first | exact .any | exact .float

theorem mergeFree : {fields : Fields Ty} → (ms : List Member) → (∀ f ∈ fields, f.2.DecimalFree) →
    (∀ m ∈ ms, m.ty.DecimalFree) → ∀ f ∈ mergeMembers fields ms, f.2.DecimalFree
  | _, [], known, _ => known
  | fields, ⟨_, _, ty, _⟩ :: rest, known, each => by
    obtain ⟨here, later⟩ := List.forall_mem_cons.mp each
    unfold mergeMembers
    refine mergeFree rest (Fields.eachPut known ?_) later
    split
    · rename_i old got
      exact unifyFree ty (known _ (Fields.getInside got)) here
    · exact here

end

theorem unifyAllFree {ts : List Ty} (each : ∀ t ∈ ts, t.DecimalFree) : (unifyAll ts).DecimalFree := by
  cases ts with
  | nil => exact .any
  | cons t rest =>
    obtain ⟨first, later⟩ := List.forall_mem_cons.mp each
    unfold unifyAll
    induction rest generalizing t with
    | nil => exact first
    | cons u rest ih =>
      obtain ⟨next, later⟩ := List.forall_mem_cons.mp later
      have both := unifyFree u first next
      exact ih _ (List.forall_mem_cons.mpr ⟨both, later⟩) both later

mutual

theorem inferFree : (j : Json) → (infer (.ofJson j)).DecimalFree
  | .null => .any
  | .bool _ => .bool
  | .whole n => by
    unfold Value.ofJson
    split
    · exact .int
    · exact .float
  | .real _ => .float
  | .string _ => .string
  | .array items => .sequence (unifyAllFree (inferItemsFree items))
  | .object fields => declareFree (inferMembersFree fields)

theorem inferItemsFree : (js : List Json) → ∀ t ∈ inferItems (Value.ofJsonItems js), t.DecimalFree
  | [], t, inside => by cases inside
  | j :: rest, t, inside => by
    unfold Value.ofJsonItems inferItems at inside
    split at inside
    · exact inferItemsFree rest t inside
    · rcases List.mem_cons.mp inside with rfl | later
      · exact inferFree j
      · exact inferItemsFree rest t later

theorem inferMembersFree : (fields : List (String × Json)) →
    ∀ m ∈ inferMembers (Value.ofJsonFields fields), m.2.DecimalFree
  | [], m, inside => by cases inside
  | (name, j) :: rest, m, inside => by
    unfold Value.ofJsonFields inferMembers at inside
    rcases List.mem_cons.mp inside with rfl | later
    · exact inferFree j
    · exact inferMembersFree rest m later

end

end Ty

namespace Value

inductive Computed : Value → Value → Value → Prop where
  | absentLeft {b} : Computed .null b .null
  | absentRight {a} : Computed a .null .null
  | texts {s t u} : Computed (.string s) (.string t) (.string u)
  | whole {m n k} : Computed (.integer m) (.integer n) (.integer k)
  | decimalLeft {d b e} : Computed (.decimal d) b (.decimal e)
  | decimalRight {a d e} : Computed a (.decimal d) (.decimal e)
  | floats {x y z} : Computed (.float x) (.float y) (.float z)
  | floatLeft {x n z} : Computed (.float x) (.integer n) (.float z)
  | floatRight {n y z} : Computed (.integer n) (.float y) (.float z)

theorem decimalsResult {op : BinaryOp} {a b : Value} {overflow unfit : QueryError} {v : Value}
    (h : (match a.asDecimal?, b.asDecimal? with
      | some x, some y =>
        if isQuotient op && y.isZero then .error .divisionByZero
        else match decimalResult? op x y with
          | some d => .ok (.decimal d)
          | none => .error overflow
      | _, _ => .error unfit : Except QueryError Value) = .ok v) : ∃ d, v = .decimal d := by
  split at h
  · split at h
    · cases h
    · split at h
      · cases h
        exact ⟨_, rfl⟩
      · cases h
  · cases h

theorem guardedResult {c : Prop} [Decidable c] {error : QueryError} {v w : Value}
    (h : (if c then .error error else .ok w : Except QueryError Value) = .ok v) : w = v := by
  split at h <;> cases h
  rfl

theorem arithmeticComputes {op : BinaryOp} {a b v : Value} (h : arithmetic op a b = .ok v) :
    Computed a b v := by
  unfold arithmetic at h
  dsimp only at h
  split at h
  · cases h
    exact .absentLeft
  · cases h
    exact .absentRight
  · split at h
    · cases h
      exact .texts
    · cases h
  · split at h
    · cases h
    · split at h
      · cases h
        exact .whole
      · cases h
  · obtain ⟨d, rfl⟩ := decimalsResult h
    exact .decimalLeft
  · obtain ⟨d, rfl⟩ := decimalsResult h
    exact .decimalRight
  · cases guardedResult h
    exact .floats
  · cases guardedResult h
    exact .floatLeft
  · cases guardedResult h
    exact .floatRight
  · cases h

/-- What a conversion makes: the value itself, if the type accepts it, or a number for a number. A whole number is not
itself what a decimal type asks for, though the type accepts it. -/
inductive Converted (v : Value) : Ty → Value → Prop where
  | kept {t} (accepted : t.accepts v = true) (other : t = .decimal → ∀ n, v ≠ .integer n) : Converted v t v
  | whole {n} (number : v.asFloat? ≠ none) : Converted v .int (.integer n)
  | float {x} (number : v.asFloat? ≠ none) : Converted v .float (.float x)
  | decimal {d} (number : v.asFloat? ≠ none) : Converted v .decimal (.decimal d)

theorem convertMakes {t : Ty} {checked : Bool} {v w : Value} (h : v.convert checked t = .ok w) : v.Converted t w := by
  unfold convert at h
  dsimp only at h
  split at h
  · cases h
    exact .kept (Ty.acceptsNull t) fun _ n same => by cases same
  · cases h
    exact .kept rfl fun same => by cases same
  · split at h
    · cases h
      exact .whole (Option.some_ne_none _)
    · split at h <;> cases h
      exact .whole (Option.some_ne_none _)
  · split at h
    · rename_i made
      cases h
      obtain ⟨n, _, rfl⟩ := Option.map_eq_some_iff.mp made
      exact .whole (Option.some_ne_none _)
    · cases h
  · cases h
    exact .float (Option.some_ne_none _)
  · cases h
    exact .float (Option.some_ne_none _)
  · cases h
    exact .decimal (Option.some_ne_none _)
  · split at h
    · rename_i made
      cases h
      obtain ⟨d, _, rfl⟩ := Option.map_eq_some_iff.mp made
      exact .decimal (Option.some_ne_none _)
    · cases h
  · rename_i other _
    split at h
    · rename_i accepted
      cases h
      exact .kept accepted fun same n => other n same
    · cases h

end Value

namespace Ty

theorem promoteCases {t u r : Ty} (h : BinaryOp.promote t u = some r) :
    r = .any ∨ t = .int ∧ u = .int ∧ r = .int ∨
      t.isNumeric = true ∧ u.isNumeric = true ∧
        ((t = .decimal ∨ u = .decimal) ∧ r = .decimal ∨ t ≠ .decimal ∧ u ≠ .decimal ∧ r = .float) := by
  unfold BinaryOp.promote at h
  split at h
  · cases h
    exact .inl rfl
  · cases h
    exact .inl rfl
  · cases h
    exact .inr (.inl ⟨rfl, rfl, rfl⟩)
  · split at h
    · rename_i numeric
      rw [Bool.and_eq_true] at numeric
      refine .inr (.inr ⟨numeric.1, numeric.2, ?_⟩)
      split at h
      · rename_i decimal
        cases h
        exact .inl ⟨decimal, rfl⟩
      · rename_i other
        cases h
        exact .inr ⟨(not_or.mp other).1, (not_or.mp other).2, rfl⟩
    · cases h

theorem numericCases {t : Ty} (numeric : t.isNumeric = true) : t = .int ∨ t = .float ∨ t = .decimal := by
  cases t <;> simp [isNumeric] at numeric ⊢

theorem arithmeticHolds {op : BinaryOp} {t u r : Ty} {a b v : Value}
    (typed : BinaryOp.promote t u = some r ∨ t = .string ∧ u = .string ∧ r = .string)
    (left : t.Holds a) (right : u.Holds b) (h : Value.arithmetic op a b = .ok v) : r.Holds v := by
  have computed := Value.arithmeticComputes h
  rcases typed with promoted | ⟨rfl, rfl, rfl⟩
  · rcases promoteCases promoted with rfl | ⟨rfl, rfl, rfl⟩ | ⟨first, second, result⟩
    · exact .any
    · cases computed <;> cases left <;> cases right <;> constructor
    · -- a decimal type makes the result decimal, since the value on its side is a decimal
      rcases numericCases first with rfl | rfl | rfl <;> rcases numericCases second with rfl | rfl | rfl <;>
        rcases result with ⟨decimal, rfl⟩ | ⟨noLeft, noRight, rfl⟩ <;>
        first
          | (cases computed <;> cases left <;> cases right <;> constructor)
          | simp at decimal
          | exact absurd rfl noLeft
          | exact absurd rfl noRight
  · cases computed <;> cases left <;> cases right <;> constructor

theorem applyHolds {op : BinaryOp} {t u r : Ty} {a b v : Value} (typed : op.result? t u = some r)
    (left : t.Holds a) (right : u.Holds b) (h : a.apply op b = .ok v) : r.Holds v := by
  unfold BinaryOp.result? at typed
  unfold Value.apply at h
  cases op with
  | equal | notEqual | and | or =>
    cases typed
    cases h
    exact .bool
  | less | greater | lessEqual | greaterEqual =>
    dsimp only at typed h
    split at typed
    · cases typed
      unfold Value.ordered at h
      split at h <;> cases h
      exact .bool
    · cases typed
  | add =>
    dsimp only at typed
    split at typed
    · rename_i texts
      cases typed
      exact arithmeticHolds (.inr ⟨texts.1, texts.2, rfl⟩) left right h
    · exact arithmeticHolds (.inl typed) left right h
  | subtract | multiply | divide | modulo => exact arithmeticHolds (.inl typed) left right h

theorem applyUnaryHolds {op : UnaryOp} {t r : Ty} {a v : Value} (typed : op.result? t = some r)
    (holds : t.Holds a) (h : a.applyUnary op = .ok v) : r.Holds v := by
  cases op with
  | not =>
    cases typed
    cases h
    exact .bool
  | negate =>
    unfold UnaryOp.result? at typed
    dsimp only at typed
    split at typed
    · cases typed
      unfold Value.applyUnary Value.negate at h
      dsimp only at h
      split at h
      · cases h
        exact .null
      · split at h
        · cases h
          cases holds <;> constructor
        · cases h
      · cases h
        cases holds <;> constructor
      · cases h
        cases holds <;> constructor
      · cases h
    · cases typed

def Scalar : Ty → Prop
  | .any | .bool | .int | .float | .decimal | .string => True
  | _ => False

theorem convertHolds {t : Ty} {checked : Bool} {v w : Value} (scalar : t.Scalar)
    (h : v.convert checked t = .ok w) : t.Holds w := by
  cases Value.convertMakes h with
  | whole => exact .int
  | float => exact .float
  | decimal => exact .decimal
  | kept accepted other =>
    cases t with
    | decimal =>
      cases v with
      | null => exact .null
      | decimal => exact .decimal
      | integer n => exact absurd rfl (other rfl n)
      | _ => cases accepted
    | any => exact .any
    | bool => exact DecimalFree.bool.holds accepted
    | int => exact DecimalFree.int.holds accepted
    | float => exact DecimalFree.float.holds accepted
    | string => exact DecimalFree.string.holds accepted
    | _ => cases scalar

theorem memberHolds {t : Ty} {name : String} {m : Member} {v w : Value} (declared : t.member? name = some m)
    (holds : t.Holds v) (h : v.read m.name = .ok w) : m.ty.Holds w := by
  cases holds with
  | any =>
    cases declared
    exact .any
  | null =>
    cases h
    exact .null
  | @object o fields members =>
    have inside := List.mem_of_find?_eq_some declared
    cases h
    cases stored : Fields.get? m.name fields with
    | none => exact .null
    | some u => exact members m inside u stored
  | @grouping key element k es under each =>
    unfold member? at declared
    dsimp only at declared
    split at declared
    · cases declared
      cases h
      exact under
    · cases declared
  | _ => cases declared

theorem convertKeeps {t : Ty} {checked : Bool} {v w : Value} (other : v.asFloat? = none)
    (h : v.convert checked t = .ok w) : w = v := by
  cases Value.convertMakes h with
  | kept => rfl
  | whole number | float number | decimal number => exact absurd other number

theorem Holds.scalar {t : Ty} {v : Value} (holds : t.Holds v) (number : v.asFloat? ≠ none) : t.Scalar := by
  cases holds with
  | any | bool | int | float | whole | decimal | string => trivial
  | _ => exact absurd rfl number

theorem callTextHolds {method : TextMethod} {v w : Value} {args : List Value}
    (h : v.callText method args = .ok w) : method.result.Holds w := by
  unfold Value.callText at h
  split at h
  · cases h
    exact .null
  · unfold Value.applyText at h
    dsimp only at h
    cases method <;> dsimp only at h
    case upper | lower | trim => cases h; exact .string
    case length => cases h; exact .int
    all_goals
      split at h
      · obtain ⟨b, _, rfl⟩ := okMap h
        exact .bool
      · cases h
      · cases h
  · cases h

end Ty

end SymbolicQuery
