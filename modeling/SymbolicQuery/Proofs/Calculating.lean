import SymbolicQuery.Eval
import SymbolicQuery.Proofs.Result
import SymbolicQuery.Proofs.Parts

/-! Expressions of whole numbers. Their value is the exact one as long as every step stays within 64 bits and divides by no
zero; otherwise the first step that does not, counted from the left and from below, says what the error is. The one step
that fails with a value in range is the remainder of the least whole number by minus one, whose quotient has no room. -/
namespace SymbolicQuery

def Fits (z : Int) : Prop := -(2 ^ 63) ≤ z ∧ z < 2 ^ 63

instance (z : Int) : Decidable (Fits z) := inferInstanceAs (Decidable (_ ∧ _))

theorem fitsIff {z : Int} : Fits z ↔ ∃ n, int64? z = some n := by
  unfold int64?
  by_cases room : Fits z
  · exact iff_of_true room ⟨_, if_pos room⟩
  · exact iff_of_false room fun ⟨n, known⟩ => Option.some_ne_none n (known.symm.trans (if_neg room))

theorem unfit {z : Int} (large : ¬ Fits z) : int64? z = none := if_neg large

theorem fits64 (n : Int64) : Fits n.toInt := ⟨Int64.le_toInt n, Int64.toInt_lt n⟩

namespace BinaryOp

def Arithmetic (op : BinaryOp) : Prop := op ∈ [add, subtract, multiply, divide, modulo]

instance (op : BinaryOp) : Decidable op.Arithmetic := inferInstanceAs (Decidable (_ ∈ _))

theorem Arithmetic.cases {op : BinaryOp} (arithmetic : op.Arithmetic) :
    op = add ∨ op = subtract ∨ op = multiply ∨ op = divide ∨ op = modulo := by
  simpa [Arithmetic] using arithmetic

def exact (op : BinaryOp) (a b : Int) : Int :=
  match op with
  | add => a + b
  | subtract => a - b
  | multiply => a * b
  | divide => a.tdiv b
  | _ => a.tmod b

def fault? (op : BinaryOp) (a b : Int) : Option ErrorKind :=
  if Value.isQuotient op = true ∧ b = 0 then some .divisionByZero
  else if op = modulo ∧ a = -(2 ^ 63) ∧ b = -1 then some .overflow
  else if Fits (op.exact a b) then none
  else some .overflow

theorem faultless {op : BinaryOp} {a b : Int} (clear : op.fault? a b = none) :
    (Value.isQuotient op = true → b ≠ 0) ∧ Fits (op.exact a b) := by
  unfold fault? at clear
  split at clear
  · cases clear
  · rename_i divides
    split at clear
    · cases clear
    · split at clear
      · rename_i room
        exact ⟨fun quotient zero => divides ⟨quotient, zero⟩, room⟩
      · cases clear

end BinaryOp

namespace Expr

inductive Calculation : Expr → Prop where
  | constant {i t n} : Calculation (.constant i t (.integer n))
  | negate {i t e} (operand : Calculation e) : Calculation (.unary i t .negate e)
  | binary {i t op l r} (arithmetic : op.Arithmetic) (left : Calculation l) (right : Calculation r) :
      Calculation (.binary i t op l r)

def exact : Expr → Int
  | .constant _ _ (.integer n) => n.toInt
  | .unary _ _ _ operand => -operand.exact
  | .binary _ _ op left right => op.exact left.exact right.exact
  | _ => 0

def steps : Expr → List Expr
  | e@(.unary _ _ _ operand) => operand.steps ++ [e]
  | e@(.binary _ _ _ left right) => left.steps ++ right.steps ++ [e]
  | e => [e]

def fault? : Expr → Option ErrorKind
  | .binary _ _ op left right => op.fault? left.exact right.exact
  | e => if Fits e.exact then none else some .overflow

variable {e : Expr} {a : Assignment}

theorem stepsPerm (written : e.Calculation) : e.steps.Perm e.nodes := by
  induction written with
  | constant => exact .refl _
  | negate _ ih => exact (List.perm_append_singleton _ _).trans (ih.cons _)
  | binary _ _ _ left right => exact (List.perm_append_singleton _ _).trans ((left.append right).cons _)

end Expr

inductive ComesTo (z : Int) : Option ErrorKind → Except QueryError Value → Prop where
  | value {n : Int64} (same : n.toInt = z) : ComesTo z none (.ok (.integer n))
  | error {e : QueryError} {kind : ErrorKind} (same : e.kind = kind) : ComesTo z (some kind) (.error e)

namespace Value

theorem overflows {z : Int} {e : QueryError} (kind : e.kind = .overflow) :
    ComesTo z (if Fits z then none else some .overflow)
      (match int64? z with
        | some n => .ok (.integer n)
        | none => .error e) := by
  by_cases room : Fits z
  · obtain ⟨n, known⟩ := fitsIff.mp room
    rw [if_pos room, known]
    exact .value (int64Eq.mp known).symm
  · rw [if_neg room, unfit room]
    exact .error kind

theorem quotientFits (n : Int64) {m : Int64} (nonzero : m.toInt ≠ 0) :
    Fits (n.toInt.tdiv m.toInt) ↔ ¬ (n.toInt = -(2 ^ 63) ∧ m.toInt = -1) := by
  -- A quotient is no larger than its dividend, and at most half of it unless the divisor is a
  -- sign.
  obtain ⟨low, high⟩ := fits64 n
  rcases Nat.lt_or_ge m.toInt.natAbs 2 with sign | wide
  · rcases (by omega : m.toInt = 1 ∨ m.toInt = -1) with one | minus
    · rw [one, Int.tdiv_one]
      exact iff_of_true ⟨low, high⟩ fun least => by omega
    · rw [minus, Int.tdiv_neg, Int.tdiv_one, Fits]
      refine ⟨fun room least => by omega, fun other => ?_⟩
      have above : n.toInt ≠ -(2 ^ 63) := fun least => other ⟨least, rfl⟩
      omega
  · have half : (n.toInt.tdiv m.toInt).natAbs ≤ n.toInt.natAbs / 2 := by
      rw [Int.natAbs_tdiv]
      exact Nat.div_le_div_left wide (by decide)
    refine iff_of_true ?_ fun least => ?_
    · unfold Fits
      omega
    · omega

theorem arithmeticApply {op : BinaryOp} (arithmetic : op.Arithmetic) {a b : Value} :
    a.apply op b = Value.arithmetic op a b := by
  rcases arithmetic.cases with rfl | rfl | rfl | rfl | rfl <;> rfl

theorem applyWhole {op : BinaryOp} (arithmetic : op.Arithmetic) (n m : Int64) :
    apply op (.integer n) (.integer m) =
      if isQuotient op && m == 0 then .error .divisionByZero
      else match integerResult? op n.toInt m.toInt with
        | some k => .ok (.integer k)
        | none => .error (.overflow ((integer n).text ++ " " ++ op.symbol ++ " " ++ (integer m).text)) :=
  arithmeticApply arithmetic

theorem resultComes {op : BinaryOp} (arithmetic : op.Arithmetic) (n : Int64) {m : Int64} {e : QueryError}
    (divides : ¬ (isQuotient op = true ∧ m.toInt = 0)) (kind : e.kind = .overflow) :
    ComesTo (op.exact n.toInt m.toInt)
      (if op = .modulo ∧ n.toInt = -(2 ^ 63) ∧ m.toInt = -1 then some .overflow
        else if Fits (op.exact n.toInt m.toInt) then none else some .overflow)
      (match integerResult? op n.toInt m.toInt with
        | some k => .ok (.integer k)
        | none => .error e) := by
  -- Without a zero divisor only the room for the result counts, and for a remainder that for
  -- the quotient as well.
  rcases arithmetic.cases with rfl | rfl | rfl | rfl | rfl
  · exact overflows kind
  · exact overflows kind
  · exact overflows kind
  · exact overflows kind
  · have nonzero : m.toInt ≠ 0 := fun zero => divides ⟨rfl, zero⟩
    by_cases least : n.toInt = -(2 ^ 63) ∧ m.toInt = -1
    · have roomless : int64? (n.toInt.tdiv m.toInt) = none := unfit fun room => (quotientFits n nonzero).mp room least
      rw [if_pos ⟨rfl, least⟩]
      simp only [integerResult?, roomless, Option.bind_none]
      exact .error kind
    · obtain ⟨q, quotient⟩ := fitsIff.mp ((quotientFits n nonzero).mpr least)
      rw [if_neg fun both => least both.2]
      simp only [integerResult?, quotient, Option.bind_some]
      exact overflows kind

theorem arithmeticComes {op : BinaryOp} (arithmetic : op.Arithmetic) (n m : Int64) :
    ComesTo (op.exact n.toInt m.toInt) (op.fault? n.toInt m.toInt) (apply op (.integer n) (.integer m)) := by
  have zero : (isQuotient op && m == 0) = true ↔ isQuotient op = true ∧ m.toInt = 0 := by
    rw [Bool.and_eq_true, beq_iff_eq, ← Int64.toInt_inj]
    exact Iff.rfl
  rw [applyWhole arithmetic, BinaryOp.fault?]
  by_cases divides : isQuotient op = true ∧ m.toInt = 0
  · rw [if_pos divides, if_pos (zero.mpr divides)]
    exact .error rfl
  · rw [if_neg divides, if_neg (divides ∘ zero.mp)]
    exact resultComes arithmetic n divides rfl

theorem negateComes (n : Int64) :
    ComesTo (-n.toInt) (if Fits (-n.toInt) then none else some .overflow) (applyUnary .negate (.integer n)) :=
  overflows rfl

end Value

namespace Expr

theorem arithmeticEval {op : BinaryOp} (arithmetic : op.Arithmetic) {i : Nat} {t : Ty} {l r : Expr} {a : Assignment} :
    (binary i t op l r).eval a = (do l.eval a >>= fun x => r.eval a >>= x.apply op) := by
  rcases arithmetic.cases with rfl | rfl | rfl | rfl | rfl <;> rfl

theorem evalComes {e : Expr} (written : e.Calculation) (a : Assignment) :
    ComesTo e.exact (e.steps.findSome? fault?) (e.eval a) := by
  induction written with
  | @constant i t n =>
    have right : (constant i t (.integer n)).fault? = none := if_pos (fits64 n)
    simp only [steps, List.findSome?_cons, right, List.findSome?_nil]
    exact .value rfl
  | @negate i t e operand ih =>
    simp only [steps, List.findSome?_append, List.findSome?_singleton]
    unfold eval
    generalize e.steps.findSome? fault? = wrong at ih ⊢
    generalize e.eval a = outcome at ih ⊢
    cases ih with
    | @value n same =>
      have here := Value.negateComes n
      rw [same] at here
      exact here
    | error same => exact .error same
  | @binary i t op l r arithmetic _ _ left right =>
    simp only [steps, List.findSome?_append, List.findSome?_singleton]
    rw [arithmeticEval arithmetic]
    -- a fault on the left is met before any on the right
    generalize l.steps.findSome? fault? = wrong at left ⊢
    generalize l.eval a = outcome at left ⊢
    cases left with
    | error same => exact .error same
    | @value n same =>
      generalize r.steps.findSome? fault? = wrong at right ⊢
      generalize r.eval a = outcome at right ⊢
      cases right with
      | error same => exact .error same
      | @value m same' =>
        have here := Value.arithmeticComes arithmetic n m
        rw [same, same'] at here
        exact here

/-- A calculation has a value exactly if nothing is wrong with any of its nodes, and then its exact one. It fails exactly
if something is wrong, with an error of the kind that the first such step says. -/
theorem calculatesExactly {e : Expr} (written : e.Calculation) (a : Assignment) :
    (∀ v, e.eval a = .ok v ↔ e.Every (·.fault? = none) ∧ ∃ n : Int64, v = .integer n ∧ n.toInt = e.exact) ∧
    ∀ kind, (∃ error, e.eval a = .error error ∧ error.kind = kind) ↔
      ∃ before s after, e.steps = before ++ s :: after ∧ s.fault? = some kind ∧ ∀ t ∈ before, t.fault? = none := by
  have clear : e.steps.findSome? fault? = none ↔ e.Every (·.fault? = none) := by
    rw [List.findSome?_eq_none_iff]
    exact forall_congr' fun s => imp_congr_left (stepsPerm written).mem_iff
  have comes := evalComes written a
  simp only [← clear, ← List.findSome?_eq_some_iff]
  generalize e.steps.findSome? fault? = wrong at comes ⊢
  generalize e.eval a = outcome at comes ⊢
  cases comes with
  | @value n same =>
    refine ⟨fun v => ⟨?_, ?_⟩, by simp⟩
    · rintro ⟨⟩
      exact ⟨rfl, n, rfl, same⟩
    · rintro ⟨-, m, rfl, same'⟩
      rw [Int64.toInt_inj.mp (same.trans same'.symm)]
  | error same => exact ⟨by simp, fun kind => by simp [same]⟩

def whole (i : Nat) (n : Int64) : Expr := .constant i .int (.integer n)

/- `-(7 / 2) * 5 - 9 % 4` is -16, and in `9 % (2 - 2) + 9223372036854775807 * 2` the zero divisor is met before the
product that has no room. -/
theorem calculatesExactlyOfMixed :
    let e := Expr.binary 9 .int .subtract
      (.binary 5 .int .multiply (.unary 3 .int .negate (.binary 2 .int .divide (whole 0 7) (whole 1 2))) (whole 4 5))
      (.binary 8 .int .modulo (whole 6 9) (whole 7 4))
    let s := Expr.binary 4 .int .modulo (whole 0 9) (.binary 3 .int .subtract (whole 1 2) (whole 2 2))
    let f := Expr.binary 8 .int .add s (.binary 7 .int .multiply (whole 5 9223372036854775807) (whole 6 2))
    e.Calculation ∧ f.Calculation ∧ e.eval .empty = .ok (.integer (-16)) ∧
      ∃ error, f.eval .empty = .error error ∧ error.kind = .divisionByZero := by
  intro e s f
  have written : e.Calculation :=
    .binary (by decide) (.binary (by decide) (.negate (.binary (by decide) .constant .constant)) .constant)
      (.binary (by decide) .constant .constant)
  have written' : f.Calculation :=
    .binary (by decide) (.binary (by decide) .constant (.binary (by decide) .constant .constant))
      (.binary (by decide) .constant .constant)
  have order : f.steps = [whole 0 9, whole 1 2, whole 2 2, .binary 3 .int .subtract (whole 1 2) (whole 2 2)] ++
      s :: [whole 5 9223372036854775807, whole 6 2, .binary 7 .int .multiply (whole 5 9223372036854775807) (whole 6 2), f] :=
    rfl
  refine ⟨written, written', ((calculatesExactly written .empty).1 _).mpr ⟨?_, -16, rfl, rfl⟩,
    ((calculatesExactly written' .empty).2 _).mpr ⟨_, _, _, order, rfl, by decide⟩⟩
  unfold Every
  decide

/- The least whole number leaves no remainder by minus one; zero has room, and still it is an overflow. -/
theorem remainderRefused :
    let e := Expr.binary 2 .int .modulo (whole 0 (-9223372036854775808)) (whole 1 (-1))
    e.Calculation ∧ (∀ s ∈ e.steps, Fits s.exact) ∧ (whole 1 (-1)).exact ≠ 0 ∧ e.exact = 0 ∧
      e.eval .empty = .error (.overflow "-9223372036854775808 % -1") := by
  intro e
  exact ⟨.binary (by decide) .constant .constant, by decide, by decide, rfl, rfl⟩

end Expr

end SymbolicQuery
