import SymbolicQuery.Expr.Chain
import SymbolicQuery.Proofs.Reading
import SymbolicQuery.Proofs.Typing

/-! Expressions that texts write. Without object types in scope, every node that a reader makes is
typed over its parts, and its leaves are literals and the parameters in scope. -/
namespace SymbolicQuery
open Results

namespace Expr

def Written (params : List Param) (e : Expr) : Prop := e.Every (Typed fun n => ∃ p ∈ params, OfParam p n)

theorem writtenIff {params : List Param} {e : Expr} : e.Written params ↔
    e.Typed (fun n => ∃ p ∈ params, OfParam p n) ∧ ∀ c ∈ e.parts, c.Written params := everyIff

end Expr

namespace Ty

theorem memberName {t : Ty} {name : String} {m : Member} (declared : t.member? name = some m) :
    m.name = name := by
  unfold member? at declared
  split at declared
  · exact eq_of_beq (List.find?_some (p := fun m : Member => m.name == name) declared)
  · split at declared
    · rename_i same
      cases declared
      exact same.symm
    · cases declared
  · cases declared
    rfl
  · cases declared

end Ty

namespace Build
open SymbolicQuery.Expr
variable {e o l r : Expr} {m : Member} {params : List Param}

theorem freshYields {node : Nat → Expr} (h : yields (m := Build) (return node (← freshNode)) e) :
    ∃ i, e = node i := by
  obtain ⟨i, _, last⟩ := ofBind h
  exact ⟨i, (ofPure last).symm⟩

theorem binaryYields {op : BinaryOp} (h : yields (binary op l r) e) :
    ∃ i t, op.result? l.ty r.ty = some t ∧ e = .binary i t op l r := by
  unfold binary at h
  split at h
  · rename_i t result
    obtain ⟨i, same⟩ := freshYields h
    exact ⟨i, t, result, same⟩
  · exact (notThrow h).elim

theorem unaryYields {op : UnaryOp} (h : yields (unary op o) e) :
    ∃ i t, op.result? o.ty = some t ∧ e = .unary i t op o := by
  unfold unary at h
  split at h
  · rename_i t result
    obtain ⟨i, same⟩ := freshYields h
    exact ⟨i, t, result, same⟩
  · exact (notThrow h).elim

theorem textCallYields {method : TextMethod} {args : List Expr} (h : yields (textCall o method args) e) :
    ∃ i, e = .textCall i method o args := by
  obtain ⟨_, _, h⟩ := ofBind h
  obtain ⟨_, _, h⟩ := ofBind h
  split at h
  · exact (notThrow h).elim
  · exact freshYields h

theorem convertYields {checked : Bool} {t : Ty} (h : yields (convert checked o t) e) :
    ∃ i, e = .convert i t checked o := by
  obtain ⟨_, _, h⟩ := ofBind h
  exact freshYields h

theorem getterYields (h : yields (getter o m) e) : ∃ i, e = .getter i o m := by
  obtain ⟨_, _, h⟩ := ofBind h
  obtain ⟨_, _, h⟩ := ofBind h
  exact freshYields h

theorem readYields (h : yields (read o m) e) : ∃ i, e = .access i o m ∨ e = .getter i o m := by
  obtain ⟨_, _, h⟩ := ofBind h
  obtain ⟨i, _, last⟩ := ofBind (ofLiftT h)
  have made := ofPure last
  split at made
  · exact ⟨i, .inr made.symm⟩
  · exact ⟨i, .inl made.symm⟩

theorem anonymousTyped {fields : List (String × Expr)} {leaf : Expr → Prop}
    (h : yields (anonymous fields) e) : e.Typed leaf ∧ e.parts = fields.map (·.2) := by
  obtain ⟨i, _, last⟩ := ofBind h
  cases ofPure last
  refine ⟨.construct ?_, rfl⟩
  simp only [ObjectOf.ofShape, ObjectOf.declare, List.map_map]
  rw [List.forall₂_map_left_iff, List.forall₂_map_right_iff]
  exact List.forall₂_same.mpr fun _ _ => rfl

end Build

namespace Reading
open SymbolicQuery.Expr Build
variable {scope : Scope} {nested operand : Reading Expr} {operator? : Token → Option BinaryOp}

theorem operationGives {left : Expr} (written : left.Written scope.params)
    (each : Gives scope operand (Written scope.params)) :
    Gives scope (operation operator? operand left) fun r => ∀ e, r = some e → e.Written scope.params := by
  unfold operation
  refine givesThen fun (token, position) => ?_
  dsimp only
  split
  · exact givesPure (by simp)
  · refine givesThen fun _ => givesBind each fun right written' => ?_
    refine givesBind (P := Written scope.params) (givesBuild fun e made => ?_) fun e holds =>
      givesPure fun e' same => Option.some.inj same ▸ holds
    obtain ⟨i, t, result, rfl⟩ := binaryYields made
    exact writtenIff.mpr ⟨(.binary result), by simpa [parts] using ⟨written, written'⟩⟩

theorem leftGroupedGives (each : Gives scope operand (Written scope.params)) :
    Gives scope (leftGrouped operator? operand) (Written scope.params) :=
  givesBind each fun _ written => iterateGives written fun _ written => operationGives written each

theorem singleGives (each : Gives scope operand (Written scope.params)) :
    Gives scope (single operator? operand) (Written scope.params) := by
  refine givesBind each fun left written => givesBind (operationGives written each) fun r known => ?_
  cases r with
  | none => exact givesPure written
  | some e => exact givesPure (known e rfl)

theorem signedGives (each : Gives scope operand (Written scope.params)) :
    Gives scope (signed operand) (Written scope.params) := by
  refine givesThen fun signs => givesBind each fun e written => ?_
  induction signs generalizing e with
  | nil => exact givesPure written
  | cons sign rest ih =>
    rw [List.foldlM_cons]
    refine givesBind (P := Written scope.params) (givesBuild fun e' made => ?_) fun e' holds => ih e' holds
    obtain ⟨i, t, result, rfl⟩ := unaryYields made
    exact writtenIff.mpr ⟨(.unary result), by simpa [parts] using written⟩

theorem typeGives (untyped : scope.types = []) : Gives scope type Ty.Scalar := by
  refine givesThen fun (name, position) => ?_
  dsimp only
  split
  case h_7 =>
    refine givesBind (givesRead (Q := fun s => s = scope) rfl) fun s same => ?_
    subst same
    rw [Scope.type?, untyped]
    exact givesThrow
  all_goals exact givesPure trivial

theorem methodCallGives {object : Expr} {name : String} {position : Nat} {args : List Expr}
    (written : object.Written scope.params) (each : ∀ e ∈ args, e.Written scope.params) :
    Gives scope (methodCall object name position args) (Written scope.params) := by
  unfold methodCall
  split
  · rename_i member found
    refine givesBuild fun e made => ?_
    obtain ⟨_, _, made⟩ := ofBind made
    obtain ⟨i, rfl⟩ := getterYields made
    have declared := (Option.filter_eq_some_iff.mp found).1
    rw [← Ty.memberName declared] at declared
    exact writtenIff.mpr ⟨(.getter declared), by simpa [parts] using written⟩
  · refine givesBuild fun e made => ?_
    obtain ⟨i, rfl⟩ := textCallYields made
    exact writtenIff.mpr ⟨.textCall, List.forall_mem_cons.mpr ⟨written, each⟩⟩
  · exact givesThrow

theorem memberReadGives {object : Expr} {name : String} {position : Nat}
    (written : object.Written scope.params) :
    Gives scope (memberRead object name position) (Written scope.params) := by
  refine givesBuild fun e made => ?_
  split at made
  · rename_i member declared
    rw [← Ty.memberName declared] at declared
    obtain ⟨i, rfl | rfl⟩ := readYields made
    · exact writtenIff.mpr ⟨(.access declared), by simpa [parts] using written⟩
    · exact writtenIff.mpr ⟨(.getter declared), by simpa [parts] using written⟩
  · exact (notThrow made).elim

theorem suffixGives (untyped : scope.types = []) {e : Expr} (written : e.Written scope.params)
    (each : Gives scope nested (Written scope.params)) :
    Gives scope (suffix nested e) fun r => ∀ e', r = some e' → e'.Written scope.params := by
  have one : ∀ {x : Reading Expr}, Gives scope x (Written scope.params) →
      Gives scope (some <$> x) fun r => ∀ e', r = some e' → e'.Written scope.params :=
    fun gives => givesBind gives fun _ holds => givesPure fun _ same => Option.some.inj same ▸ holds
  unfold suffix
  refine givesThen fun token => ?_
  split
  · refine givesThen fun _ => givesThen fun (name, position) => givesThen fun called => ?_
    split
    · exact givesBind (itemsGive each) fun args known => one (methodCallGives written known)
    · exact one (memberReadGives written)
  · refine givesThen fun _ => givesThen fun checked => givesBind (typeGives untyped) fun t scalar =>
      one (givesBuild fun e' made => ?_)
    obtain ⟨i, rfl⟩ := convertYields made
    exact writtenIff.mpr ⟨(.convert scalar), by simpa [parts] using written⟩
  · exact givesPure (by simp)

theorem constructionGives (untyped : scope.types = []) {position : Nat}
    (each : Gives scope nested (Written scope.params)) :
    Gives scope (construction position nested) (Written scope.params) := by
  have unnamed : Gives scope constructedType? fun t => t = none := by
    refine givesThen fun token => ?_
    split
    · refine givesThen fun (name, position) => givesBind (givesRead (Q := fun s => s = scope) rfl) ?_
      intro s same
      subst same
      rw [Scope.type?, untyped]
      exact givesThrow
    · exact givesPure rfl
  refine givesBind unnamed ?_
  intro t none
  subst none
  refine givesThen fun _ => givesBind (itemsGive (P := fun f => f.2.2.Written scope.params) ?_)
    fun fields known => givesBuild fun e made => ?_
  · exact givesThen fun (name, position) => givesThen fun _ => givesBind each fun e holds =>
      givesPure holds
  · obtain ⟨typed, same⟩ := anonymousTyped (ofLiftT made)
    refine writtenIff.mpr ⟨typed, fun c inside => ?_⟩
    rw [same, List.map_map] at inside
    obtain ⟨field, member, rfl⟩ := List.mem_map.mp inside
    exact known field member

theorem literalGives {node : Fresh Expr} {position : Nat} {P : Expr → Prop}
    (holds : ∀ e, yields node e → P e) : Gives scope (literal node position) P :=
  givesThen fun _ => givesBuild fun e made => holds e (ofLiftT made)

theorem constantWritten {params : List Param} {node : Nat → Expr} {t : Ty} {v : Value}
    (same : ∀ i, node i = .constant i t v) (holds : t.Holds v) {e : Expr}
    (made : yields (m := Fresh) (return node (← freshNode)) e) : e.Written params := by
  obtain ⟨i, _, last⟩ := ofBind made
  cases ofPure last
  rw [same]
  exact writtenIff.mpr ⟨.constant holds, by simp [parts]⟩

theorem parameterWritten {params : List Param} {p : Param} (member : p ∈ params) {e : Expr}
    (made : yields (m := Fresh) (Build.parameter p) e) : e.Written params := by
  obtain ⟨i, _, last⟩ := ofBind made
  cases ofPure last
  exact writtenIff.mpr ⟨.parameter ⟨p, member, i, rfl⟩, by simp [parts]⟩

theorem nameGives (name : String) (position : Nat) :
    Gives scope (do
      match (← read).param? name with
      | some p => literal (Build.parameter p) position
      | none => throw (.unknownName name position)) (Written scope.params) := by
  refine givesBind (givesRead (Q := fun s => s = scope) rfl) ?_
  intro s same
  subst same
  cases found : s.param? name with
  | some p => exact literalGives fun e => parameterWritten (List.mem_of_find?_eq_some found)
  | none => exact givesThrow

theorem operandGives (untyped : scope.types = []) (each : Gives scope nested (Written scope.params)) :
    Gives scope (Reading.operand nested) (Written scope.params) := by
  refine givesThen fun (token, position) => ?_
  cases token with
  | float x => exact literalGives fun e => constantWritten (fun _ => rfl) .float
  | integer n => exact literalGives fun e => constantWritten (fun _ => rfl) .int
  | string s => exact literalGives fun e => constantWritten (fun _ => rfl) .string
  | boolean b => exact literalGives fun e => constantWritten (fun _ => rfl) .bool
  | null => exact literalGives fun e => constantWritten (fun _ => rfl) .any
  | identifier name => exact nameGives name position
  | openParen =>
    exact givesThen fun _ => givesBind each fun e holds => givesThen fun _ => givesPure holds
  | newWord => exact givesThen fun _ => constructionGives untyped each
  | _ => exact givesThen fun _ => givesUnexpected

theorem expressionOverGives (untyped : scope.types = []) (each : Gives scope nested (Written scope.params)) :
    Gives scope (expressionOver nested) (Written scope.params) := by
  refine leftGroupedGives (leftGroupedGives (singleGives (leftGroupedGives (leftGroupedGives
    (signedGives ?_)))))
  exact givesBind (operandGives untyped each) fun e written =>
    iterateGives written fun e written => suffixGives untyped written each

theorem expressionToGives (untyped : scope.types = []) (depth : Nat) :
    Gives scope (expressionTo depth) (Written scope.params) := by
  induction depth with
  | zero => exact givesUnexpected
  | succ depth ih => exact expressionOverGives untyped ih

theorem expressionGives (untyped : scope.types = []) :
    Gives scope expression (Written scope.params) := givesThen fun _ => expressionToGives untyped _

theorem lambdaGives (untyped : scope.types = []) {ty : Ty} :
    Gives scope (lambda ty) fun l => ∃ p, l.params = [p] ∧ p.ty = ty ∧
      l.body.Written (p :: scope.params) := by
  refine givesThen fun (name, position) => givesThen fun _ => ?_
  refine givesBind (P := fun p => p.ty = ty) (givesLift fun p made => ?_) fun p same => ?_
  · obtain ⟨i, _, last⟩ := ofBind made
    cases ofPure last
    rfl
  · refine givesBind (P := Written (p :: scope.params)) ?_ fun body written => givesPure ⟨p, rfl, same, written⟩
    have inner : (scope.push p).types = [] := untyped
    exact expressionGives inner

end Reading

end SymbolicQuery
