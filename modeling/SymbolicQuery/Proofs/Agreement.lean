import SymbolicQuery.Eval
import SymbolicQuery.Proofs.Parts

/-! When two evaluations agree. Evaluation respects any agreement that sequencing respects: a node
over agreeing parts agrees with the node that it was rebuilt from. -/
namespace SymbolicQuery

structure Agreement where
  rel {α : Type} : Except QueryError α → Except QueryError α → Prop
  ok {α : Type} (a : α) : rel (.ok a) (.ok a)
  error {α : Type} {e f : QueryError} (same : e.kind = f.kind) : rel (α := α) (.error e) (.error f)
  bind {α β : Type} {x y : Except QueryError α} {f g : α → Except QueryError β}
    (first : rel x y) (next : ∀ a, rel (f a) (g a)) : rel (x >>= f) (y >>= g)

namespace Agreement

theorem refl (A : Agreement) {α : Type} (x : Except QueryError α) : A.rel x x := by
  cases x with
  | error e => exact A.error rfl
  | ok a => exact A.ok a

def atLeast : Agreement where
  rel x y := ∀ a, x = .ok a → y = .ok a
  ok _ _ h := h
  error _ _ h := by cases h
  bind {_ _ x y f g} first next b h := by
    cases x with
    | error e => cases h
    | ok a => rw [first a rfl]; exact next a b h

def sameKind : Agreement where
  rel x y := x.mapError QueryError.kind = y.mapError QueryError.kind
  ok _ := rfl
  error same := by simp only [Except.mapError, same]
  bind {_ _ x y f g} first next := by
    cases x <;> cases y <;> simp only [Except.mapError] at first
    · exact congrArg Except.error (Except.error.inj first)
    · cases first
    · cases first
    · cases first
      exact next _

end Agreement

namespace Expr
variable {A : Agreement} {a b : Assignment}

theorem evalAllAgrees {es es' : List Expr}
    (related : List.Forall₂ (fun c c' => A.rel (c.eval a) (c'.eval b)) es es') :
    A.rel (evalAll a es) (evalAll b es') := by
  induction related with
  | nil => exact A.ok []
  | cons head _ ih =>
    unfold evalAll
    exact A.bind head fun v => A.bind ih fun vs => A.ok (v :: vs)

theorem evalFieldsAgree {fields : Fields Value} {names : List String} {es es' : List Expr}
    (related : List.Forall₂ (fun c c' => A.rel (c.eval a) (c'.eval b)) es es') :
    A.rel (evalFields a fields names es) (evalFields b fields names es') := by
  induction related generalizing fields names with
  | nil => cases names <;> exact A.ok fields
  | cons head _ ih =>
    cases names with
    | nil => exact A.ok fields
    | cons name names =>
      unfold evalFields
      exact A.bind head fun v => ih

theorem evalBindingsAgree {fields : Fields Value} {bs bs' : List Binding}
    (related : List.Forall₂ (BindingOf.Related fun c c' => A.rel (c.eval a) (c'.eval b)) bs bs') :
    A.rel (evalBindings a fields bs) (evalBindings b fields bs') := by
  induction related generalizing fields with
  | nil => exact A.ok fields
  | cons head _ ih =>
    cases head with
    | assign value =>
      unfold evalBindings
      exact A.bind value fun v => ih
    | collect items =>
      unfold evalBindings
      exact A.bind (evalAllAgrees items) fun vs => ih

theorem evalRebuilt {e n : Expr}
    (same : Rebuilt (fun c c' => A.rel (c.eval a) (c'.eval b)) e n)
    (param : ∀ i p, e = .parameter i p → a.param p = b.param p)
    (source : ∀ i s, e = .reference i s → a.source s.id = b.source s.id) :
    A.rel (e.eval a) (n.eval b) := by
  cases same with
  | @constant i j t v =>
    unfold eval
    exact A.ok v
  | @parameter i j p =>
    simp only [eval, param i p rfl]
    exact A.refl _
  | @reference i j s =>
    simp only [eval, source i s rfl]
    exact A.refl _
  | access object | getter object =>
    unfold eval
    exact A.bind object fun v => A.refl _
  | unary operand =>
    unfold eval
    exact A.bind operand fun v => A.refl _
  | binary left right =>
    unfold eval
    -- the left operand alone may settle a condition
    refine A.bind left fun l => ?_
    split
    · exact A.refl _
    · split
      · exact A.refl _
      · exact A.bind right fun r => A.refl _
  | textCall receiver args =>
    unfold eval
    exact A.bind receiver fun v => A.bind (evalAllAgrees args) fun vs => A.refl _
  | stageCall input args =>
    unfold eval
    exact A.refl _
  | convert operand =>
    unfold eval
    exact A.bind operand fun v => A.refl _
  | @construct i j t ms as as' args =>
    have empty : as.isEmpty = as'.isEmpty := by cases args <;> rfl
    unfold eval
    rw [empty]
    dsimp only
    split
    · exact A.refl _
    · exact A.bind (evalFieldsAgree args) fun fields => A.refl _
  | populate base bindings =>
    unfold eval
    refine A.bind base fun v => ?_
    split
    · exact A.bind (evalBindingsAgree bindings) fun fields => A.refl _
    · exact A.refl _
  | lambda body =>
    unfold eval
    exact A.error rfl

end Expr

end SymbolicQuery
