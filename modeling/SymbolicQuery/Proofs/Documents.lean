import SymbolicQuery.Json.Reader
import SymbolicQuery.Value.Exchange
import SymbolicQuery.Proofs.Magnitude

/-! Documents as they are read. Numbers are whole and of 64 bits, signed or not, or they are finite; an object that
repeats a name keeps the last content under it. What holds of these and is kept when a bracket is closed is kept by
each token that the reader takes, and so holds of every document. -/
namespace SymbolicQuery

namespace Value

mutual

def apart : Value → Bool
  | .array items => apartAll items
  | .object members => decide (Fields.names members).Nodup && apartMembers members
  | .grouping key elements => key.apart && apartAll elements
  | _ => true

def apartAll : List Value → Bool
  | [] => true
  | v :: rest => v.apart && apartAll rest

def apartMembers : List (String × Value) → Bool
  | [] => true
  | (_, v) :: rest => v.apart && apartMembers rest

end

end Value

namespace Json

inductive Scalar : Json → Prop where
  | null : Scalar .null
  | bool {b} : Scalar (.bool b)
  | whole {n : Int} (low : -(2 ^ 63) ≤ n) (high : n < 2 ^ 64) : Scalar (.whole n)
  | real {x : Binary64} (finite : x.isFinite = true) : Scalar (.real x)
  | string {s} : Scalar (.string s)

structure Kept (P : Json → Prop) : Prop where
  scalar : ∀ j, j.Scalar → P j
  array : ∀ items, (∀ j ∈ items, P j) → P (.array items)
  object : ∀ fields, (∀ f ∈ fields, P f.2) → P (.object (Fields.ofList fields))

section Numbers
variable {value : Nat} {cs : List Char} {x : Binary64} {j : Json}

theorem keptDigits (small : value < 2 ^ 64) : (keepDigits value cs).1 < 2 ^ 64 := by
  induction cs generalizing value with
  | nil => exact small
  | cons c rest ih =>
    unfold keepDigits
    dsimp only
    split
    · rename_i next
      exact ih next
    · exact small

theorem tenNumber (n : Nat) : (powerOfTen n).isNaN = false := Binary64.ofUnitsNumber _ _ _

theorem tenAtLeast (n : Nat) (finite : (powerOfTen n).isFinite = true) : Binary64.one ≤ (powerOfTen n).units :=
  Binary64.ofNatAtLeast (Nat.pow_pos (by decide)) finite

theorem scaledFinite {steps places k : Nat} (finite : x.isFinite = true) (small : x.units < 2 ^ k)
    (room : k + steps ≤ 2000) : (scaleDown x steps places).isFinite = true := by
  induction steps generalizing x k places with
  | zero => exact finite
  | succ steps ih =>
    have divided (n : Nat) := Binary64.divFinite finite small (by omega) (tenNumber n) (tenAtLeast n)
    unfold scaleDown
    split
    · exact (divided places).1
    · exact ih (divided 308).1 (divided 308).2 (by omega)

theorem scaleFinite {digits : Nat} {exponent : Int} (small : digits < 2 ^ 64) (read : scale? digits exponent = some x) :
    x.isFinite = true := by
  obtain ⟨finite, k, room, bound⟩ := Binary64.ofNatFinite small
  have number := tenNumber exponent.toNat
  unfold scale? at read
  generalize Binary64.ofNat digits = y, powerOfTen exponent.toNat = power at *
  dsimp only at read
  split at read
  · cases read
    exact scaledFinite finite bound (by omega)
  split at read
  · cases read
    exact finite
  rename_i nonzero
  split at read
  · cases read
  split at read <;> cases read
  rename_i bounded
  exact Binary64.numberFinite (Binary64.mulNumber finite (Bool.eq_false_iff.mpr nonzero) number)
    (Bool.eq_false_iff.mpr bounded)

theorem realScalar {negative : Bool} {integral places : List Char} {exponent : Int}
    (read : real? negative integral places exponent = some j) : j.Scalar := by
  obtain ⟨x, scaled, read⟩ := Option.bind_eq_some_iff.mp read
  cases read
  have finite := scaleFinite (keptDigits (keptDigits (by decide))) scaled
  cases negative <;> exact .real finite

theorem numberScalar (read : number? cs = some j) : j.Scalar := by
  unfold number? at read
  dsimp only at read
  split at read
  all_goals
    split at read
    · cases read
    split at read
    · split at read
      · rename_i fits
        have small := of_decide_eq_true (Bool.and_eq_true_iff.mp fits).2
        cases read
        exact .whole (by omega) (by omega)
      · split at read
        · rename_i fits
          have small := of_decide_eq_true (Bool.and_eq_true_iff.mp fits).2
          cases read
          exact .whole (by omega) (by omega)
        · exact realScalar read
    · split at read
      · split at read
        · cases read
        · obtain ⟨_, _, read⟩ := Option.bind_eq_some_iff.mp read
          obtain ⟨_, _, read⟩ := Option.bind_eq_some_iff.mp read
          exact realScalar read
      · obtain ⟨_, _, read⟩ := Option.bind_eq_some_iff.mp read
        obtain ⟨_, _, read⟩ := Option.bind_eq_some_iff.mp read
        exact realScalar read

theorem wordScalar (read : word? cs = some j) : j.Scalar := by
  unfold word? at read
  split at read
  · cases read
    exact .null
  · split at read
    · cases read
      exact .bool
    · split at read <;> cases read
      exact .bool

end Numbers

section Kept
variable {P : Json → Prop} (kept : Kept P)

def Frame.Each (P : Json → Prop) : Frame → Prop
  | .array items => ∀ j ∈ items, P j
  | .object fields _ => ∀ f ∈ fields, P f.2

def Token.Each (P : Json → Prop) : Token → Prop
  | .scalar j => P j
  | _ => True

structure Progress.Each (P : Json → Prop) (p : Progress) : Prop where
  stack : ∀ f ∈ p.stack, f.Each P
  result : P p.result

namespace Progress
variable {p p' : Progress} {j : Json} {stack : List Frame}
include kept

theorem takeKept (each : ∀ f ∈ stack, f.Each P) (holds : P j) : (take j stack).Each P := by
  have null : P .null := kept.scalar _ .null
  cases stack with
  | nil => exact ⟨each, holds⟩
  | cons frame rest =>
    obtain ⟨here, later⟩ := List.forall_mem_cons.mp each
    cases frame with
    | array items => exact ⟨List.forall_mem_cons.mpr ⟨List.forall_mem_cons.mpr ⟨holds, here⟩, later⟩, null⟩
    | object fields key =>
      exact ⟨List.forall_mem_cons.mpr ⟨List.forall_mem_cons.mpr ⟨holds, here⟩, later⟩, null⟩

theorem enterKept {frame : Frame} {next : Next} (each : ∀ f ∈ p.stack, f.Each P) (here : frame.Each P)
    (entered : p.enter frame next = some p') : p'.Each P := by
  unfold enter at entered
  split at entered <;> cases entered
  exact ⟨List.forall_mem_cons.mpr ⟨here, each⟩, kept.scalar _ .null⟩

theorem stepKept {t : Token} (known : p.Each P) (holds : t.Each P) (step : p.step t = some p') : p'.Each P := by
  obtain ⟨each, _⟩ := known
  have null : P .null := kept.scalar _ .null
  unfold Progress.step at step
  split at step
  case h_1 | h_2 =>
    cases step
    exact takeKept kept each holds
  case h_3 | h_4 =>
    cases step
    exact takeKept kept each (kept.scalar _ .string)
  case h_5 | h_6 | h_7 | h_8 =>
    refine enterKept kept each ?_ step
    intro _ none
    cases none
  case h_13 =>
    cases step
    exact ⟨each, null⟩
  case h_18 => cases step
  all_goals
    rename_i top
    rw [top] at each
    obtain ⟨here, later⟩ := List.forall_mem_cons.mp each
    cases step
  case h_9 => exact takeKept kept later (kept.array [] fun _ none => by cases none)
  case h_10 => exact takeKept kept later (kept.object [] fun _ none => by cases none)
  case h_16 => exact takeKept kept later (kept.array _ fun j inside => here j (List.mem_reverse.mp inside))
  case h_17 => exact takeKept kept later (kept.object _ fun f inside => here f (List.mem_reverse.mp inside))
  all_goals exact ⟨List.forall_mem_cons.mpr ⟨here, later⟩, null⟩

theorem stepsKept {tokens : List Token} (known : p.Each P) (holds : ∀ t ∈ tokens, t.Each P)
    (steps : tokens.foldlM Progress.step p = some p') : p'.Each P := by
  induction tokens generalizing p with
  | nil =>
    cases steps
    exact known
  | cons t rest ih =>
    obtain ⟨here, later⟩ := List.forall_mem_cons.mp holds
    rw [List.foldlM_cons] at steps
    obtain ⟨p₁, step, steps⟩ := Option.bind_eq_some_iff.mp steps
    exact ih (stepKept kept known here step) later steps

end Progress

include kept

theorem tokensKept {cs : List Char} {tokens : List Token} (read : tokens? cs = some tokens) :
    ∀ t ∈ tokens, t.Each P := by
  fun_induction tokens? cs generalizing tokens with
  | case1 =>
    cases read
    exact fun _ none => by cases none
  | case2 _ _ _ ih => exact ih read
  | case3 => cases read
  | case4 rest body after _ _ _ ih =>
    obtain ⟨_, _, read⟩ := Option.bind_eq_some_iff.mp read
    obtain ⟨_, _, read⟩ := Option.bind_eq_some_iff.mp read
    obtain ⟨later, cut, read⟩ := Option.bind_eq_some_iff.mp read
    cases read
    exact List.forall_mem_cons.mpr ⟨trivial, ih cut⟩
  | case5 _ _ _ _ _ _ ih =>
    obtain ⟨later, cut, rfl⟩ := Option.map_eq_some_iff.mp read
    exact List.forall_mem_cons.mpr ⟨trivial, ih cut⟩
  | case6 _ _ _ _ _ _ _ _ ih =>
    obtain ⟨j, scanned, read⟩ := Option.bind_eq_some_iff.mp read
    obtain ⟨later, cut, read⟩ := Option.bind_eq_some_iff.mp read
    cases read
    exact List.forall_mem_cons.mpr ⟨kept.scalar j (numberScalar scanned), ih cut⟩
  | case7 _ _ _ _ _ _ _ _ ih =>
    obtain ⟨j, scanned, read⟩ := Option.bind_eq_some_iff.mp read
    obtain ⟨later, cut, read⟩ := Option.bind_eq_some_iff.mp read
    cases read
    exact List.forall_mem_cons.mpr ⟨kept.scalar j (wordScalar scanned), ih cut⟩

theorem readKept {text : String} {j : Json} (read : read? text = some j) : P j := by
  obtain ⟨tokens, cut, read⟩ := Option.bind_eq_some_iff.mp read
  obtain ⟨p, steps, read⟩ := Option.bind_eq_some_iff.mp read
  split at read <;> cases read
  have start : Progress.Each P ⟨[], .value, .null⟩ := ⟨fun _ none => (by cases none), kept.scalar _ .null⟩
  exact (Progress.stepsKept kept start (tokensKept kept cut) steps).result

end Kept

def Apart (j : Json) : Prop := (Value.ofJson j).apart = true

theorem apartItems {js : List Json} : Value.apartAll (Value.ofJsonItems js) = true ↔ ∀ j ∈ js, j.Apart := by
  induction js with
  | nil => simp [Value.ofJsonItems, Value.apartAll]
  | cons j rest ih => simp [Value.ofJsonItems, Value.apartAll, ih, Apart]

theorem apartFields {fields : List (String × Json)} :
    Value.apartMembers (Value.ofJsonFields fields) = true ↔ ∀ f ∈ fields, f.2.Apart := by
  induction fields with
  | nil => simp [Value.ofJsonFields, Value.apartMembers]
  | cons f rest ih => simp [Value.ofJsonFields, Value.apartMembers, ih, Apart]

theorem ofJsonNames {fields : List (String × Json)} :
    Fields.names (Value.ofJsonFields fields) = Fields.names fields := by
  induction fields with
  | nil => rfl
  | cons f rest ih => exact congrArg (f.1 :: ·) ih

theorem apartObject {fields : List (String × Json)} (each : ∀ f ∈ fields, f.2.Apart) :
    Apart (.object (Fields.ofList fields)) := by
  unfold Apart Value.ofJson Value.apart
  rw [Bool.and_eq_true, decide_eq_true_iff, ofJsonNames]
  exact ⟨Fields.ofListApart, apartFields.mpr (Fields.eachOfList each)⟩

theorem apartArray {items : List Json} (each : ∀ j ∈ items, j.Apart) : Apart (.array items) :=
  apartItems.mpr each

theorem scalarApart {j : Json} (scalar : j.Scalar) : j.Apart := by
  cases scalar with
  | @whole n _ _ =>
    unfold Apart Value.ofJson
    cases int64? n <;> rfl
  | null | bool | real | string => rfl

theorem readApart {text : String} {j : Json} (read : read? text = some j) : j.Apart :=
  readKept ⟨fun _ => scalarApart, fun _ => apartArray, fun _ => apartObject⟩ read

def items? : Json → Option (List Json)
  | .array items => some items
  | _ => none

theorem itemsMeeting (text : String) (condition : List Json → Bool)
    (meets : ((read? text).bind items?).any condition = true) :
    ∃ js, read? text = some (.array js) ∧ condition js = true := by
  obtain ⟨js, found, holds⟩ := (Option.any_eq_true _ _).mp meets
  obtain ⟨j, read, items⟩ := Option.bind_eq_some_iff.mp found
  cases j with
  | array =>
    cases items
    exact ⟨js, read, holds⟩
  | _ => cases items

end Json

end SymbolicQuery
