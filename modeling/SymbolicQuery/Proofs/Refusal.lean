import SymbolicQuery.Proofs.Outcome
import SymbolicQuery.Proofs.ReadingBack
import SymbolicQuery.Query.Execute
import SymbolicQuery.Query.OfChain

/-! Where values are checked against types. An argument, a row and a single result are checked while
a query runs; evaluation, and everything that builds expressions, fails in other ways. -/
namespace SymbolicQuery
open Results

namespace QueryError

def FromCheck : QueryError → Prop
  | .mismatch (.argument _) _ _ | .mismatch .row _ _ | .mismatch .scalar _ _ => True
  | _ => False

def Other (e : QueryError) : Prop := ¬ e.FromCheck

def Computing : QueryError → Prop
  | .mismatch (.argument _) _ _ | .mismatch .row _ _ | .mismatch .scalar _ _ => False
  | .unresolved .. | .noPath .. => False
  | _ => True

theorem Computing.other {e : QueryError} (computing : e.Computing) : Other e := by
  intro check
  cases e with
  | mismatch site => cases site <;> first | exact computing | exact check
  | _ => exact check

end QueryError

open QueryError

namespace Value

abbrev Plain (x : Except QueryError Value) : Prop := Expects x (fun _ => True) Computing

theorem plainOk {v : Value} : Plain (.ok v) := expectsOk trivial

theorem arithmeticPlain (op : BinaryOp) (a b : Value) : Plain (arithmetic op a b) := by
  unfold arithmetic
  dsimp only
  split
  · exact plainOk
  · exact plainOk
  · split
    · exact plainOk
    · exact expectsError trivial
  · split
    · exact expectsError trivial
    · split
      · exact plainOk
      · exact expectsError trivial
  iterate 2
    · split
      · split
        · exact expectsError trivial
        · split
          · exact plainOk
          · exact expectsError trivial
      · exact expectsError trivial
  iterate 3
    · split
      · split
        · exact expectsError trivial
        · exact plainOk
      · exact expectsError trivial
  · exact expectsError trivial

theorem applyPlain (op : BinaryOp) (a b : Value) : Plain (a.apply op b) := by
  unfold apply
  cases op with
  | equal | notEqual | and | or => exact plainOk
  | less | greater | lessEqual | greaterEqual =>
    unfold ordered
    dsimp only
    split
    · exact expectsError trivial
    · exact plainOk
  | add | subtract | multiply | divide | modulo => exact arithmeticPlain _ a b

theorem applyUnaryPlain (op : UnaryOp) (v : Value) : Plain (v.applyUnary op) := by
  cases op with
  | not => exact plainOk
  | negate =>
    unfold applyUnary negate
    dsimp only
    split
    · exact plainOk
    · split
      · exact plainOk
      · exact expectsError trivial
    · exact plainOk
    · exact plainOk
    · exact expectsError trivial

theorem convertPlain (checked : Bool) (t : Ty) (v : Value) : Plain (v.convert checked t) := by
  unfold convert
  dsimp only
  split
  · exact plainOk
  · exact plainOk
  · split
    · exact plainOk
    · split
      · exact expectsError trivial
      · exact plainOk
  · split
    · exact plainOk
    · exact expectsError trivial
  · exact plainOk
  · exact plainOk
  · exact plainOk
  · split
    · exact plainOk
    · exact expectsError trivial
  · split
    · exact plainOk
    · exact expectsError trivial

theorem readPlain (name : String) (v : Value) : Plain (v.read name) := by
  unfold read
  split
  · exact plainOk
  · exact plainOk
  · split
    · exact plainOk
    · exact expectsError trivial

theorem callTextPlain (method : TextMethod) (v : Value) (args : List Value) :
    Plain (v.callText method args) := by
  unfold callText
  split
  · exact plainOk
  · unfold applyText
    dsimp only
    cases method with
    | upper | lower | trim | length => exact plainOk
    | contains | startsWith | endsWith =>
      dsimp only
      split
      · exact plainOk
      · exact expectsError trivial
      · exact expectsError trivial
    | matchesPattern =>
      dsimp only
      split
      · split
        · exact plainOk
        · exact expectsError trivial
      · exact expectsError trivial
      · exact expectsError trivial
  · exact expectsError trivial

end Value

namespace Expr
open Value
variable {a : Assignment} {E : QueryError → Prop}

theorem evalAllExpects {es : List Expr} (each : ∀ e ∈ es, Expects (e.eval a) (fun _ => True) E) :
    Expects (evalAll a es) (fun _ => True) E := by
  induction es with
  | nil => exact expectsOk trivial
  | cons e rest ih =>
    obtain ⟨here, later⟩ := List.forall_mem_cons.mp each
    unfold evalAll
    exact expectsBind here fun _ _ => expectsBind (ih later) fun _ _ => expectsOk trivial

theorem evalFieldsExpect {es : List Expr} (each : ∀ e ∈ es, Expects (e.eval a) (fun _ => True) E)
    {names : List String} {fields : Fields Value} :
    Expects (evalFields a fields names es) (fun _ => True) E := by
  induction es generalizing names fields with
  | nil => cases names <;> exact expectsOk trivial
  | cons e rest ih =>
    obtain ⟨here, later⟩ := List.forall_mem_cons.mp each
    cases names with
    | nil => exact expectsOk trivial
    | cons name names =>
      unfold evalFields
      exact expectsBind here fun _ _ => ih later

theorem evalBindingsExpect {bs : List Binding}
    (each : ∀ e ∈ bs.flatMap BindingOf.parts, Expects (e.eval a) (fun _ => True) E)
    {fields : Fields Value} : Expects (evalBindings a fields bs) (fun _ => True) E := by
  induction bs generalizing fields with
  | nil => exact expectsOk trivial
  | cons b rest ih =>
    rw [List.flatMap_cons] at each
    obtain ⟨here, later⟩ := List.forall_mem_append.mp each
    cases b with
    | assign m e =>
      unfold evalBindings
      exact expectsBind (here e List.mem_cons_self) fun _ _ => ih later
    | collect m es =>
      unfold evalBindings
      exact expectsBind (evalAllExpects here) fun _ _ => ih later

theorem evalExpects (computing : ∀ err, Computing err → E err) (e : Expr)
    (unknown : ∀ i s, .reference i s ∈ e.nodes → E (.unresolved s.itemName .inEvaluation)) :
    Expects (e.eval a) (fun _ => True) E := by
  induction e using partsInduction with
  | step e ih =>
    have part : ∀ c ∈ e.parts, Expects (c.eval a) (fun _ => True) E := fun c inside =>
      ih c inside fun i s below => unknown i s (memNodes.mpr (.inr ⟨c, inside, below⟩))
    have plain : ∀ {x : Except QueryError Value}, Plain x → Expects x (fun _ => True) E :=
      fun h => ⟨h.1, fun err failed => computing err (h.2 err failed)⟩
    cases e with
    | constant => unfold eval; exact expectsOk trivial
    | parameter =>
      unfold eval
      split
      · exact expectsOk trivial
      · exact expectsError (computing _ trivial)
    | reference i s =>
      unfold eval
      split
      · exact expectsOk trivial
      · exact expectsError (unknown i s (selfNode _))
    | access i o m | getter i o m =>
      unfold eval
      exact expectsBind (part o List.mem_cons_self) fun v _ => plain (readPlain m.name v)
    | unary i t op o =>
      unfold eval
      exact expectsBind (part o List.mem_cons_self) fun v _ => plain (applyUnaryPlain op v)
    | binary i t op l r =>
      unfold eval
      refine expectsBind (part l List.mem_cons_self) fun v _ => ?_
      split
      · exact expectsOk trivial
      · split
        · exact expectsOk trivial
        · exact expectsBind (part r (List.mem_cons_of_mem _ List.mem_cons_self)) fun w _ =>
            plain (applyPlain op v w)
    | textCall i method r args =>
      unfold eval
      exact expectsBind (part r List.mem_cons_self) fun v _ =>
        expectsBind (evalAllExpects fun e inside => part e (List.mem_cons_of_mem _ inside)) fun vs _ =>
          plain (callTextPlain method v vs)
    | stageCall => unfold eval; exact expectsError (computing _ trivial)
    | convert i t c o =>
      unfold eval
      exact expectsBind (part o List.mem_cons_self) fun v _ => plain (convertPlain c t v)
    | construct i t ms es =>
      unfold eval
      dsimp only
      split
      · exact expectsOk trivial
      · exact expectsBind (evalFieldsExpect part) fun _ _ => expectsOk trivial
    | populate i t b bs =>
      unfold eval
      refine expectsBind (part b List.mem_cons_self) fun v _ => ?_
      split
      · exact expectsBind (evalBindingsExpect fun e inside => part e (List.mem_cons_of_mem _ inside))
          fun _ _ => expectsOk trivial
      · exact expectsError (computing _ trivial)
    | lambda => unfold eval; exact expectsError (computing _ trivial)

theorem evalPlain (e : Expr) : Expects (e.eval a) (fun _ => True) Other :=
  evalExpects (fun _ => Computing.other) e fun _ _ _ => not_false

variable {item searched full e : Expr}

def Refuses (err : QueryError) : Prop := ∃ ty step, Step.allowed ty step = false ∧ err = step.refusal ty

theorem Refuses.other {err : QueryError} (refuses : Refuses err) : Other err := by
  obtain ⟨ty, step, _, rfl⟩ := refuses
  cases step <;> exact not_false

theorem refusedKept : Search.Keeps fun s => ∀ err, s.refused = some err → Refuses err := by
  refine ⟨fun holds => holds, fun {s ty step} refused holds err same => ?_⟩
  unfold Search.refuse at same
  cases before : s.refused with
  | none =>
    rw [before] at same
    cases same
    exact ⟨ty, step, refused, rfl⟩
  | some first =>
    rw [before] at same
    cases same
    exact holds _ before

theorem pathToExpects :
    Expects (pathTo searched full) (fun _ => True) fun err =>
      Refuses err ∨ (search searched full.ty [] .start full).refused = none ∧
        err = .noPath full.text searched.text := by
  unfold pathTo
  dsimp only
  split
  · exact expectsOk trivial
  · rename_i refused
    exact expectsError (.inl (searchKept refusedKept full (fun _ none => by cases none) _ refused))
  · rename_i none
    exact expectsError (.inr ⟨none, rfl⟩)

theorem pathToOther : Expects (pathTo searched full) (fun _ => True) Other :=
  ⟨fun _ _ => trivial, fun err failed => by
    rcases pathToExpects.2 err failed with refuses | ⟨_, rfl⟩
    · exact refuses.other
    · exact not_false⟩

theorem sourcePathOther {s : Source} : Expects (item.sourcePath s) (fun _ => True) Other := by
  rcases sourcePathCases item s with ⟨_, _, _, _, found⟩ | ⟨n, err, _, failed, same⟩ | ⟨_, failed⟩
  · rw [found]
    exact expectsOk trivial
  · rw [same]
    exact expectsError (pathToOther.2 err failed)
  · rw [failed]
    exact expectsError not_false

end Expr

section Unchecked
variable {α β : Type} {m : Type → Type} [Monad m] [Results m]

def Unchecked (x : ExceptT QueryError m α) : Prop := Ends x (fun _ => True) Other

theorem uncheckedBind {x : ExceptT QueryError m α} {f : α → ExceptT QueryError m β} (first : Unchecked x)
    (next : ∀ a, Unchecked (f a)) : Unchecked (x >>= f) := endsBind first fun a _ => next a

theorem uncheckedPure {a : α} : Unchecked (m := m) (pure a) := endsPure trivial

theorem uncheckedThrow {e : QueryError} (other : Other e) : Unchecked (m := m) (α := α) (throw e) :=
  endsThrow other

theorem uncheckedLift [LawfulMonad m] {y : m α} : Unchecked (liftM y : ExceptT QueryError m α) :=
  endsLift fun _ _ => trivial

theorem uncheckedEnsure {condition : Bool} {error : QueryError} (other : Other error) :
    Unchecked (Build.ensure condition error) := (endsEnsure fun _ => other).imp fun _ _ => trivial

end Unchecked

theorem unresolveUnchecked {item e : Expr} : Unchecked (item.unresolve e) := by
  refine ⟨fun _ _ => trivial, fun err failed => ?_⟩
  obtain ⟨i, s, _, _, error⟩ := Expr.unresolveFails failed
  exact Expr.sourcePathOther.2 err error

namespace Query
variable {q : Query} {item : Expr} {c : Call}

theorem resolveUnchecked {k : Nat} : Unchecked (c.resolve k item) := by
  refine uncheckedBind (endsExcept ?_) fun l => ?_
  · unfold Call.lambda
    split
    · exact expectsOk trivial
    · exact expectsError not_false
  · unfold Lambda.resolve
    split
    · exact uncheckedBind (uncheckedEnsure not_false) fun _ => uncheckedLift
    · exact uncheckedThrow not_false

theorem argumentUnchecked : Unchecked c.argument := by
  unfold Call.argument
  split
  · exact uncheckedPure
  · exact uncheckedThrow not_false

theorem addCallUnchecked {name : String} : Unchecked (q.addCall item name c) := by
  have arity : ∀ {allowed}, Unchecked (c.ensureArity allowed) := uncheckedEnsure not_false
  refine uncheckedBind (uncheckedEnsure not_false) fun _ => ?_
  split
  · exact uncheckedBind arity fun _ => uncheckedBind resolveUnchecked fun r =>
      uncheckedBind (uncheckedBind (uncheckedEnsure not_false) fun _ => uncheckedPure) fun _ =>
        uncheckedPure
  · exact uncheckedBind arity fun _ => uncheckedBind resolveUnchecked fun r => uncheckedPure
  · exact uncheckedBind arity fun _ => uncheckedBind resolveUnchecked fun r => uncheckedPure
  · exact uncheckedBind arity fun _ => uncheckedBind resolveUnchecked fun r => uncheckedPure
  · refine uncheckedBind arity fun _ => uncheckedBind resolveUnchecked fun key => ?_
    dsimp only
    split
    · exact uncheckedBind resolveUnchecked fun element =>
        uncheckedBind uncheckedLift fun id => uncheckedBind uncheckedLift fun next => uncheckedPure
    · exact uncheckedBind uncheckedPure fun element =>
        uncheckedBind uncheckedLift fun id => uncheckedBind uncheckedLift fun next => uncheckedPure
  · exact uncheckedBind arity fun _ => uncheckedPure
  · exact uncheckedBind argumentUnchecked fun n => uncheckedBind
      (uncheckedBind (uncheckedEnsure not_false) fun _ => uncheckedPure) fun _ => uncheckedPure
  · exact uncheckedBind argumentUnchecked fun n => uncheckedBind
      (uncheckedBind (uncheckedEnsure not_false) fun _ => uncheckedPure) fun _ => uncheckedPure
  · exact uncheckedBind arity fun _ => uncheckedPure
  · exact uncheckedBind arity fun _ => uncheckedPure
  · exact uncheckedBind arity fun _ => uncheckedPure

theorem builtUnchecked {α : Type} {work : Build α} (h : Unchecked work) : Unchecked (built work) :=
  ⟨fun _ _ => trivial, fun e failed => h.2 e (ofLift (m := Fresh) failed)⟩

theorem addCallsUnchecked {calls : List Call} : Unchecked (addCalls q item calls) := by
  induction calls generalizing q item with
  | nil => exact uncheckedPure
  | cons c rest ih =>
    exact uncheckedBind uncheckedLift fun name =>
      uncheckedBind (builtUnchecked addCallUnchecked) fun _ => ih

theorem ofChainUnchecked {chain : Expr} : Unchecked (ofChain chain) := by
  refine ⟨fun _ _ => trivial, fun e failed => ?_⟩
  obtain ⟨r, assembled, same⟩ := ofBind (m := Fresh) failed
  have failed : fails (assemble chain) e := ⟨_, r.2, by rw [← ofPure same]; exact assembled⟩
  revert failed
  refine (?_ : Unchecked (assemble chain)).2 e
  unfold assemble
  refine uncheckedBind uncheckedLift fun name => uncheckedBind (builtUnchecked ?_) fun q =>
    uncheckedBind (builtUnchecked uncheckedLift) fun item => addCallsUnchecked
  refine uncheckedBind (endsExcept ?_) fun ty => uncheckedBind uncheckedLift fun source =>
    uncheckedBind uncheckedLift fun selector => uncheckedPure
  unfold itemTypeOf
  split
  · exact expectsOk trivial
  · exact expectsOk trivial
  · exact expectsError not_false

end Query

end SymbolicQuery
