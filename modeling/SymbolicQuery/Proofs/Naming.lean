import SymbolicQuery.Proofs.Equivalence
import SymbolicQuery.Proofs.Running

/-! Values whose objects name their members apart. Evaluation makes others of them alone: operators and text methods give
values without parts, a read gives a part, and constructions put every member under its name once. -/
namespace SymbolicQuery
open Results

namespace Value

variable {v w a b : Value} {name : String}

theorem objectApart {fields : Fields Value} : (object fields).apart = true ↔
    fields.names.Nodup ∧ ∀ f ∈ fields, f.2.apart = true := by
  rw [apart, Bool.and_eq_true, decide_eq_true_eq, apartMembersIff]

theorem putApart {fields : Fields Value} (apart : (object fields).apart = true) (put : v.apart = true) :
    (object (fields.put name v)).apart = true := by
  obtain ⟨names, each⟩ := objectApart.mp apart
  exact objectApart.mpr ⟨Fields.apartPut names, Fields.eachPut (P := fun v : Value => v.apart = true) each put⟩

theorem readApart (apart : v.apart = true) (h : v.read name = .ok w) : w.apart = true := by
  cases v with
  | null =>
    cases h
    rfl
  | object fields =>
    have read : (Fields.get? name fields).getD .null = w := Except.ok.inj h
    cases got : Fields.get? name fields with
    | none =>
      rw [got] at read
      exact read ▸ rfl
    | some u =>
      rw [got] at read
      exact read ▸ (objectApart.mp apart).2 _ (Fields.getInside got)
  | grouping key elements =>
    by_cases same : name = "key"
    · simp only [read, get?, if_pos same, Except.ok.injEq] at h
      exact h ▸ (Bool.and_eq_true_iff.mp apart).1
    · simp only [read, get?, if_neg same, reduceCtorEq] at h
  | _ => cases h

theorem arithmeticApart {op : BinaryOp} (h : arithmetic op a b = .ok v) : v.apart = true := by
  cases arithmeticComputes h <;> rfl

theorem orderedApart {op : BinaryOp} (h : ordered op a b = .ok v) : v.apart = true := by
  unfold ordered at h
  split at h <;> cases h
  rfl

theorem applyApart {op : BinaryOp} (h : a.apply op b = .ok v) : v.apart = true := by
  cases op with
  | add | subtract | multiply | divide | modulo => exact arithmeticApart h
  | less | greater | lessEqual | greaterEqual =>
    unfold apply at h
    exact orderedApart h
  | _ =>
    cases h
    rfl

theorem applyUnaryApart {op : UnaryOp} (h : v.applyUnary op = .ok w) : w.apart = true := by
  cases op with
  | not =>
    cases h
    rfl
  | negate =>
    cases v with
    | integer n =>
      unfold applyUnary negate at h
      dsimp only at h
      split at h <;> cases h
      rfl
    | null | float | decimal =>
      cases h
      rfl
    | _ => cases h

theorem callTextApart {method : TextMethod} {args : List Value} (h : v.callText method args = .ok w) :
    w.apart = true := by
  have holds := Ty.callTextHolds h
  cases method <;> cases holds <;> rfl

theorem convertApart {t : Ty} {checked : Bool} (apart : v.apart = true) (h : v.convert checked t = .ok w) :
    w.apart = true := by
  cases convertMakes h with
  | kept => exact apart
  | whole | float | decimal => rfl

end Value

section Path

variable {path : Path} {v w : Value}

theorem Path.apart (apart : v.apart = true) (h : path.valueFrom v = .ok w) : w.apart = true := by
  induction path generalizing v with
  | nil =>
    cases h
    exact apart
  | cons step rest ih =>
    obtain ⟨u, first, later⟩ := okBind.mp h
    refine ih ?_ later
    cases step with
    | read m => exact Value.readApart apart first
    | convertBack ty => exact Value.convertApart apart first

end Path

namespace Expr

variable {item e e' n : Expr} {a : Assignment} {v : Value}

def NamesApart : Expr → Prop
  | .constant _ _ v => v.apart = true
  | _ => True

theorem evalAllApart {es : List Expr} {vs : List Value}
    (each : ∀ e ∈ es, ∀ u, e.eval a = .ok u → u.apart = true) (h : evalAll a es = .ok vs) :
    (Value.array vs).apart = true := by
  induction es generalizing vs with
  | nil =>
    cases h
    rfl
  | cons e rest ih =>
    obtain ⟨here, later⟩ := List.forall_mem_cons.mp each
    unfold evalAll at h
    obtain ⟨v, value, h⟩ := okBind.mp h
    obtain ⟨vs', values, last⟩ := okBind.mp h
    cases last
    exact Bool.and_eq_true_iff.mpr ⟨here v value, ih later values⟩

theorem evalFieldsApart {fields after : Fields Value} {names : List String} {es : List Expr}
    (known : (Value.object fields).apart = true) (each : ∀ e ∈ es, ∀ u, e.eval a = .ok u → u.apart = true)
    (h : evalFields a fields names es = .ok after) : (Value.object after).apart = true := by
  induction names generalizing fields es with
  | nil =>
    cases es <;> cases h <;> exact known
  | cons name names ih =>
    cases es with
    | nil =>
      cases h
      exact known
    | cons e es =>
      obtain ⟨here, later⟩ := List.forall_mem_cons.mp each
      unfold evalFields at h
      obtain ⟨v, value, rest⟩ := okBind.mp h
      exact ih (Value.putApart known (here v value)) later rest

theorem evalBindingsApart {fields after : Fields Value} {bs : List Binding}
    (known : (Value.object fields).apart = true)
    (each : ∀ e ∈ bs.flatMap BindingOf.parts, ∀ u, e.eval a = .ok u → u.apart = true)
    (h : evalBindings a fields bs = .ok after) : (Value.object after).apart = true := by
  induction bs generalizing fields with
  | nil =>
    cases h
    exact known
  | cons b bs ih =>
    obtain ⟨here, later⟩ := List.forall_mem_append.mp each
    cases b with
    | assign m e =>
      unfold evalBindings at h
      obtain ⟨v, value, rest⟩ := okBind.mp h
      exact ih (Value.putApart known (here e (List.mem_singleton_self e) v value)) later rest
    | collect m es =>
      unfold evalBindings at h
      obtain ⟨vs, values, rest⟩ := okBind.mp h
      exact ih (Value.putApart known (evalAllApart here values)) later rest

theorem evalApart (names : e.NamesApart) (params : ∀ p u, a.param p = some u → u.apart = true)
    (sources : ∀ id u, a.source id = some u → u.apart = true)
    (parts : ∀ c ∈ e.parts, ∀ u, c.eval a = .ok u → u.apart = true) (h : e.eval a = .ok v) : v.apart = true := by
  have first {c : Expr} {cs : List Expr} (same : e.parts = c :: cs) {u : Value} (value : c.eval a = .ok u) :
      u.apart = true := parts c (same ▸ List.mem_cons_self) u value
  cases e with
  | constant =>
    cases h
    exact names
  | parameter i p =>
    unfold eval at h
    split at h <;> cases h
    exact params p v ‹_›
  | reference i s =>
    unfold eval at h
    split at h <;> cases h
    exact sources s.id v ‹_›
  | access | getter =>
    unfold eval at h
    obtain ⟨u, object, read⟩ := okBind.mp h
    exact Value.readApart (first rfl object) read
  | unary =>
    unfold eval at h
    obtain ⟨u, -, applied⟩ := okBind.mp h
    exact Value.applyUnaryApart applied
  | binary =>
    unfold eval at h
    obtain ⟨x, -, rest⟩ := okBind.mp h
    split at rest
    · cases rest
      rfl
    · split at rest
      · cases rest
        rfl
      · obtain ⟨y, -, applied⟩ := okBind.mp rest
        exact Value.applyApart applied
  | textCall =>
    unfold eval at h
    obtain ⟨_, -, h⟩ := okBind.mp h
    obtain ⟨_, -, called⟩ := okBind.mp h
    exact Value.callTextApart called
  | convert =>
    unfold eval at h
    obtain ⟨u, operand, converted⟩ := okBind.mp h
    exact Value.convertApart (first rfl operand) converted
  | construct i t ms es =>
    unfold eval at h
    dsimp only at h
    split at h
    · cases h
      refine Value.objectApart.mpr ⟨Fields.ofListApart, ?_⟩
      refine Fields.eachOfList (P := fun v : Value => v.apart = true) fun f inside => ?_
      obtain ⟨_, -, rfl⟩ := List.mem_map.mp inside
      rfl
    · obtain ⟨fields, stored, last⟩ := okBind.mp h
      cases last
      exact evalFieldsApart rfl parts stored
  | populate i t base bs =>
    obtain ⟨fields, after, under, stored, rfl⟩ := populateValue h
    exact evalBindingsApart (first rfl under) (fun c inside => parts c (List.mem_cons_of_mem base inside)) stored
  | stageCall | lambda => cases h

end Expr

namespace Query

variable {item e e' : Expr} {input : Param} {f : Closed} {v w : Value}

theorem readingBackApart (read : yields ((Pass.readingBack item input).run e) e') (names : e.Every Expr.NamesApart)
    (apart : v.apart = true) (h : e'.eval (Assignment.empty.bind input v) = .ok w) : w.apart = true := by
  induction e using Expr.partsInduction generalizing e' w with
  | step e ih =>
    rcases Pass.readingBackStep read with ⟨path, i, -, followed⟩ | ⟨-, -, rebuilt⟩
    · rw [Path.followEval followed] at h
      simp only [Expr.eval, Assignment.bind, if_pos] at h
      exact Path.apart apart h
    · have here : e'.NamesApart := by
        have known := names.here
        cases rebuilt <;> exact known
      refine Expr.evalApart here (fun p u bound => ?_) (fun _ _ none => by cases none) (fun c' inside u value => ?_) h
      · simp only [Assignment.bind] at bound
        split at bound <;> cases bound
        exact apart
      · obtain ⟨c, part, made⟩ := Expr.partFrom rebuilt.parts inside
        exact ih c part made (names.part part) value

theorem FunctionFrom.apart (given : FunctionFrom item e f) (names : e.Every Expr.NamesApart) (apart : v.apart = true)
    (h : f.call [v] = .ok w) : w.apart = true := by
  obtain ⟨input, e', is, -, read⟩ := given.reads
  by_cases accepted : input.ty.accepts v = true
  · have params : f.lambda.params = [input] := by rw [is]
    rw [Closed.callOne params accepted, is] at h
    exact readingBackApart read names apart h
  · simp only [Closed.call, is, List.length_singleton, ne_eq, not_true_eq_false, ↓reduceIte, Lambda.bindArguments,
      accepted, Bool.false_eq_true] at h
    cases h

end Query

end SymbolicQuery
