import SymbolicQuery.Proofs.Holding
import SymbolicQuery.Query.Execute

/-! What the type of an operator foretells of its result. Types are promoted as they are declared, while values are
computed as they are carried: a whole number may stand in a decimal position, and beside a floating-point number it is
computed in binary. In no other way does a result leave the type of its operator. -/
namespace SymbolicQuery

def Value.mixed : Value → Value → Bool
  | .integer _, .float _ | .float _, .integer _ => true
  | _, _ => false

namespace Ty

variable {t u r : Ty} {a b v : Value}

theorem wholeAccepted (numeric : t.isNumeric = true) (n : Int64) : t.accepts (.integer n) = true := by
  rcases numericCases numeric with rfl | rfl | rfl <;> rfl

theorem floatAccepted (numeric : t.isNumeric = true) {x : Binary64} : t.accepts (.float x) = true ↔ t = .float := by
  rcases numericCases numeric with rfl | rfl | rfl <;> simp [accepts]

theorem decimalAccepted (numeric : t.isNumeric = true) {d : Decimal} :
    t.accepts (.decimal d) = true ↔ t = .decimal := by
  rcases numericCases numeric with rfl | rfl | rfl <;> simp [accepts]

theorem textRefused (numeric : t.isNumeric = true) {s : String} : t.accepts (.string s) = false := by
  rcases numericCases numeric with rfl | rfl | rfl <;> rfl

theorem promoteNumeric (h : BinaryOp.promote t u = some r) :
    r = .any ∨ (t.isNumeric = true ∧ u.isNumeric = true ∧ r.isNumeric = true) ∧
      (t = .decimal ∨ u = .decimal → r = .decimal) ∧ (t = .float ∨ u = .float → r = .decimal ∨ r = .float) := by
  -- Promotion keeps numbers numbers: a decimal type wins, and a floating-point one is not lost
  -- to whole numbers.
  rcases promoteCases h with rfl | ⟨rfl, rfl, rfl⟩ | ⟨first, second, ⟨decimal, rfl⟩ | ⟨noLeft, noRight, rfl⟩⟩
  · exact .inl rfl
  · exact .inr ⟨⟨rfl, rfl, rfl⟩, by simp, by simp⟩
  · exact .inr ⟨⟨first, second, rfl⟩, fun _ => rfl, fun _ => .inl rfl⟩
  · exact .inr ⟨⟨first, second, rfl⟩, fun either => (either.elim noLeft noRight).elim, fun _ => .inr rfl⟩

theorem mixedAccepted (numeric : r.isNumeric = true) (wide : r = .decimal ∨ r = .float) {x : Binary64} :
    r.accepts (.float x) = true ↔ r ≠ .decimal := by
  rw [floatAccepted numeric]
  rcases wide with rfl | rfl <;> decide

theorem computedAccepts (promoted : BinaryOp.promote t u = some r) (left : t.accepts a = true)
    (right : u.accepts b = true) (computed : Value.Computed a b v) :
    r.accepts v = true ↔ ¬ (r = .decimal ∧ a.mixed b = true) := by
  rcases promoteNumeric promoted with rfl | ⟨⟨first, second, numeric⟩, decimal, float⟩
  · simp [accepts]
  cases computed with
  | absentLeft => simp [acceptsNull, Value.mixed]
  | absentRight => cases a <;> simp [acceptsNull, Value.mixed]
  | texts => exact absurd left (by rw [textRefused first]; decide)
  | whole => simp [wholeAccepted numeric, Value.mixed]
  | decimalLeft => simp [decimal (.inl ((decimalAccepted first).mp left)), accepts, Value.mixed]
  | decimalRight =>
    have wins := decimal (.inr ((decimalAccepted second).mp right))
    cases a <;> simp [wins, accepts, Value.mixed]
  | floats =>
    have same := (floatAccepted first).mp left
    have same' := (floatAccepted second).mp right
    subst same same'
    cases promoted
    simp [accepts]
  | floatLeft =>
    rw [mixedAccepted numeric (float (.inl ((floatAccepted first).mp left)))]
    simp [Value.mixed]
  | floatRight =>
    rw [mixedAccepted numeric (float (.inr ((floatAccepted second).mp right)))]
    simp [Value.mixed]

/-- A result is one of the operator's type, unless that type is decimal and a whole number that was let in there met a
floating-point number. -/
theorem resultAcceptedIff {op : BinaryOp} (typed : op.result? t u = some r) (left : t.accepts a = true)
    (right : u.accepts b = true) (h : a.apply op b = .ok v) :
    r.accepts v = true ↔ ¬ (r = .decimal ∧ a.mixed b = true) := by
  unfold BinaryOp.result? at typed
  unfold Value.apply at h
  have truth {p : Bool} : Ty.bool.accepts (.boolean p) = true ↔ ¬ (Ty.bool = .decimal ∧ a.mixed b = true) := by
    simp [accepts]
  cases op with
  | equal | notEqual | and | or =>
    cases typed
    cases h
    exact truth
  | less | greater | lessEqual | greaterEqual =>
    dsimp only at typed h
    split at typed
    · cases typed
      unfold Value.ordered at h
      split at h <;> cases h
      exact truth
    · cases typed
  | add =>
    dsimp only at typed
    split at typed
    · rename_i texts
      cases typed
      obtain ⟨rfl, rfl⟩ := texts
      cases Value.arithmeticComputes h <;> simp_all [accepts]
    · exact computedAccepts typed left right (Value.arithmeticComputes h)
  | subtract | multiply | divide | modulo => exact computedAccepts typed left right (Value.arithmeticComputes h)

/- A decimal beside a floating-point number of a decimal: what they are worth is a decimal again. -/
theorem resultAcceptedIffOfProduct :
    let a : Value := .decimal ⟨false, 15, 1, by decide, by decide⟩
    let b : Value := .float (Binary64.ofRatio false 1 4)
    let v : Value := .decimal ⟨false, 375, 3, by decide, by decide⟩
    BinaryOp.result? .multiply .decimal .float = some .decimal ∧ Ty.decimal.accepts a = true ∧ Ty.float.accepts b = true ∧
      a.apply .multiply b = .ok v ∧ (Ty.decimal.accepts v = true ↔ ¬ (Ty.decimal = .decimal ∧ a.mixed b = true)) := by
  intro a b v
  have typed : BinaryOp.result? .multiply .decimal .float = some .decimal := rfl
  have applied : a.apply .multiply b = .ok v := by decide +kernel
  exact ⟨typed, rfl, rfl, applied, resultAcceptedIff typed rfl rfl applied⟩

/- One is let in among decimals, and one and a half, its sum with a half, is none. A query that selects such sums over
rows of decimals stops at the check of what it selects. -/
theorem resultLeavesType :
    let half := Value.float (Binary64.ofRatio false 1 2)
    let source : Source := ⟨0, "x", .decimal⟩
    let sum := Expr.binary 2 .decimal .add (.reference 0 source) (.constant 1 .float half)
    let q : Query := ⟨source, .constant 3 (.sequence .decimal) (.array [.integer 1]), [], sum, []⟩
    BinaryOp.result? .add .decimal .float = some .decimal ∧ Ty.decimal.accepts (.integer 1) = true ∧
      Ty.float.accepts half = true ∧
      (∃ v, (Value.integer 1).apply .add half = .ok v ∧ Ty.decimal.accepts v = false) ∧
      (q.execute.run ⟨4, 0, 1⟩).1.map Output.value = .error (.mismatch .row "decimal" "float") := by
  refine ⟨rfl, rfl, rfl, ⟨.float (Binary64.ofRatio false 3 2), by decide +kernel, rfl⟩, by decide +kernel⟩

end Ty

end SymbolicQuery
