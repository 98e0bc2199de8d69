import SymbolicQuery.Proofs.Agreement
import SymbolicQuery.Proofs.Passing

/-! Work that runs in step: two pieces come to related results, or fail with errors of one kind. Sequencing
keeps step, and so do loops and passes over expressions whose nodes are related. -/
namespace SymbolicQuery
open Results

structure Lockstep (m : Type → Type) [Monad m] where
  rel {α β : Type} : (α → β → Prop) → m α → m β → Prop
  pure {α β : Type} {R : α → β → Prop} {a : α} {b : β} (related : R a b) : rel R (pure a) (pure b)
  bind {α β γ δ : Type} {R : α → β → Prop} {S : γ → δ → Prop} {x : m α} {y : m β} {f : α → m γ} {g : β → m δ}
    (first : rel R x y) (next : ∀ a b, R a b → rel S (f a) (g b)) : rel S (x >>= f) (y >>= g)

namespace Lockstep
variable {α β γ δ : Type} {m : Type → Type} [Monad m] (L : Lockstep m)

def Both (_ : α) (_ : β) : Prop := True

theorem imp [LawfulMonad m] {R S : α → β → Prop} {x : m α} {y : m β} (h : L.rel R x y)
    (weaker : ∀ a b, R a b → S a b) : L.rel S x y := by
  rw [← bind_pure x, ← bind_pure y]
  exact L.bind h fun a b related => L.pure (weaker a b related)

theorem mapM [LawfulMonad m] {T : α → β → Prop} {R : γ → δ → Prop} {f : α → m γ} {g : β → m δ} {as : List α}
    {bs : List β} (along : List.Forall₂ T as bs) (each : ∀ a b, T a b → L.rel R (f a) (g b)) :
    L.rel (List.Forall₂ R) (as.mapM f) (bs.mapM g) := by
  induction along with
  | nil => exact L.pure .nil
  | cons head _ ih =>
    rw [List.mapM_cons, List.mapM_cons]
    exact L.bind (each _ _ head) fun c d related => L.bind ih fun cs ds rest => L.pure (.cons related rest)

theorem foldlM {T : α → β → Prop} {S : γ → δ → Prop} {f : γ → α → m γ} {g : δ → β → m δ} {as : List α}
    {bs : List β} (along : List.Forall₂ T as bs)
    (step : ∀ a b c d, T a b → S c d → L.rel S (f c a) (g d b)) {c : γ} {d : δ} (start : S c d) :
    L.rel S (as.foldlM f c) (bs.foldlM g d) := by
  induction along generalizing c d with
  | nil => exact L.pure start
  | cons head _ ih =>
    rw [List.foldlM_cons, List.foldlM_cons]
    exact L.bind (step _ _ _ _ head start) fun c d related => ih related

theorem bindSame {S : γ → δ → Prop} {x y : m α} {f : α → m γ} {g : α → m δ} (first : L.rel Eq x y)
    (next : ∀ a, L.rel S (f a) (g a)) : L.rel S (x >>= f) (y >>= g) :=
  L.bind first fun a _ same => same ▸ next a

theorem mapSame [LawfulMonad m] {f g : α → m β} (each : ∀ a, L.rel Eq (f a) (g a)) (as : List α) :
    L.rel Eq (as.mapM f) (as.mapM g) := by
  refine L.imp (L.mapM (T := Eq) (R := Eq) (List.forall₂_same.mpr fun _ _ => rfl) fun a b same => ?_)
    fun bs cs same => List.forall₂_eq_eq_eq ▸ same
  subst same
  exact each a

section Passes
open SymbolicQuery.Expr
variable {p p' : Pass m} {R : Expr → Expr → Prop} {e e' : Expr} {es es' : List Expr} {bs bs' : List Binding}

theorem runAll (each : List.Forall₂ (fun c c' => L.rel Both (p.run c) (p'.run c')) es es') :
    L.rel Both (p.runAll es) (p'.runAll es') := by
  induction each with
  | nil =>
    unfold Pass.runAll
    exact L.pure trivial
  | cons head _ ih =>
    unfold Pass.runAll
    exact L.bind head fun _ _ _ => L.bind ih fun _ _ _ => L.pure trivial

theorem runBindings (each : List.Forall₂ (BindingOf.Related fun c c' => L.rel Both (p.run c) (p'.run c')) bs bs') :
    L.rel Both (p.runBindings bs) (p'.runBindings bs') := by
  induction each with
  | nil =>
    unfold Pass.runBindings
    exact L.pure trivial
  | cons head _ ih =>
    cases head with
    | assign value =>
      unfold Pass.runBindings
      exact L.bind value fun _ _ _ => L.bind ih fun _ _ _ => L.pure trivial
    | collect items =>
      unfold Pass.runBindings
      exact L.bind (L.runAll items) fun _ _ _ => L.bind ih fun _ _ _ => L.pure trivial

theorem run (enter : ∀ e e', R e e' →
      L.rel (fun r r' => r.isSome = true ∧ r'.isSome = true ∨ r = none ∧ r' = none ∧ Rebuilt R e e')
        (p.enter e) (p'.enter e'))
    (leave : ∀ b a b' a', L.rel Both (p.leave b a) (p'.leave b' a'))
    (settle : ∀ b u r b' u' r', L.rel Both (p.settle b u r) (p'.settle b' u' r')) (related : R e e') :
    L.rel Both (p.run e) (p'.run e') := by
  -- Two passes that replace related nodes together, and rebuild them over related parts, run in
  -- step. Which nodes they find changed makes no difference, as long as leaving runs in step
  -- either way.
  induction e using partsInduction generalizing e' with
  | step e ih =>
    unfold Pass.run
    refine L.bind (enter e e' related) fun r r' entered => ?_
    rcases entered with ⟨some, some'⟩ | ⟨rfl, rfl, rebuilt⟩
    · obtain ⟨k, rfl⟩ := Option.isSome_iff_exists.mp some
      obtain ⟨k', rfl⟩ := Option.isSome_iff_exists.mp some'
      exact L.pure trivial
    · have rebuilt := rebuilt.mono fun c inside c' related => ih c inside related
      cases rebuilt with
      | constant | parameter | reference => exact leave _ _ _ _
      | access head | getter head | unary head | convert head | lambda head =>
        exact L.bind head fun _ _ _ => settle _ _ _ _ _ _
      | binary left right => exact L.bind left fun _ _ _ => L.bind right fun _ _ _ => settle _ _ _ _ _ _
      | textCall first args | stageCall first args =>
        exact L.bind first fun _ _ _ => L.bind (L.runAll args) fun _ _ _ => settle _ _ _ _ _ _
      | construct args => exact L.bind (L.runAll args) fun _ _ _ => settle _ _ _ _ _ _
      | populate base bindings =>
        exact L.bind base fun _ _ _ => L.bind (L.runBindings bindings) fun _ _ _ => settle _ _ _ _ _ _

end Passes

end Lockstep

inductive Outcomes {α β : Type} (R : α → β → Prop) : Except QueryError α → Except QueryError β → Prop where
  | ok {a : α} {b : β} (related : R a b) : Outcomes R (.ok a) (.ok b)
  | error {e f : QueryError} (same : e.kind = f.kind) : Outcomes R (.error e) (.error f)

def Lockstep.outcomes : Lockstep (Except QueryError) where
  rel := Outcomes
  pure := .ok
  bind first next := by
    cases first with
    | ok related => exact next _ _ related
    | error same => exact .error same

namespace Outcomes
variable {α β γ : Type} {R : α → β → Prop}

theorem refl {x : Except QueryError α} : Outcomes Eq x x := by
  cases x with
  | ok a => exact .ok rfl
  | error e => exact .error rfl

theorem agree {x y : Except QueryError α} : Agreement.sameKind.rel x y ↔ Outcomes Eq x y := by
  constructor
  · intro same
    cases x <;> cases y <;> simp only [Agreement.sameKind, Except.mapError] at same
    · exact .error (Except.error.inj same)
    · cases same
    · cases same
    · exact .ok (Except.ok.inj same)
  · intro outcomes
    cases outcomes with
    | ok same => exact congrArg Except.ok same
    | error same => exact congrArg Except.error same

theorem answer {x : Except QueryError α} {y : Except QueryError β} (outcomes : Outcomes R x y) {f : α → γ} {g : β → γ}
    (same : ∀ a b, R a b → f a = g b) :
    (x.map f).mapError QueryError.kind = (y.map g).mapError QueryError.kind := by
  cases outcomes with
  | ok related => exact congrArg Except.ok (same _ _ related)
  | error same => exact congrArg Except.error same

end Outcomes

def Lockstep.building (bound : Nat) : Lockstep Build where
  rel R x y := ∀ s t : Supply, bound ≤ s.param → bound ≤ t.param →
    Outcomes R (x.run s).1 (y.run t).1 ∧ bound ≤ (x.run s).2.param ∧ bound ≤ (y.run t).2.param
  pure related s t within within' := ⟨.ok related, within, within'⟩
  bind {_ _ _ _ _ _ x y f g} first next s t within within' := by
    obtain ⟨outcomes, later, later'⟩ := first s t within within'
    cases run : x.run s with
    | mk r u => cases run' : y.run t with
      | mk r' u' =>
        rw [run] at outcomes later
        rw [run'] at outcomes later'
        cases outcomes with
        | ok related =>
          rw [Build.runThen run, Build.runThen run']
          exact next _ _ related u u' later later'
        | error same =>
          rw [Build.stopThen run, Build.stopThen run']
          exact ⟨.error same, later, later'⟩

namespace Build
variable {α β : Type} {bound : Nat} {R : α → β → Prop}

theorem inStepYields {x : Build α} {y : Build β} (h : (Lockstep.building bound).rel R x y) :
    (Lockstep.building bound).rel (fun a b => R a b ∧ yields x a ∧ yields y b) x y := by
  intro s t within within'
  obtain ⟨outcomes, later⟩ := h s t within within'
  refine ⟨?_, later⟩
  cases run : x.run s with
  | mk r u => cases run' : y.run t with
    | mk r' u' =>
      rw [run, run'] at outcomes
      cases outcomes with
      | ok related => exact .ok ⟨related, ⟨s, u, run⟩, ⟨t, u', run'⟩⟩
      | error same => exact .error same

theorem inStepExcept {x : Except QueryError α} {y : Except QueryError β} (h : Outcomes R x y) :
    (Lockstep.building bound).rel R (liftM x) (liftM y) := by
  intro s t within within'
  cases h with
  | ok related => exact ⟨.ok related, within, within'⟩
  | error same => exact ⟨.error same, within, within'⟩

theorem inStepEnsure {condition condition' : Bool} {e e' : QueryError} (same : condition = condition')
    (kind : e.kind = e'.kind) :
    (Lockstep.building bound).rel Lockstep.Both (ensure condition e) (ensure condition' e') := by
  subst same
  unfold ensure
  split
  · exact (Lockstep.building bound).pure trivial
  · exact fun s t within within' => ⟨.error kind, within, within'⟩

end Build

def Fresh.Beyond {α : Type} (bound : Nat) (P : α → Prop) (x : Fresh α) : Prop :=
  ∀ s : Supply, bound ≤ s.param → P (x.run s).1 ∧ bound ≤ (x.run s).2.param

namespace Fresh
variable {α β : Type} {bound : Nat} {P : α → Prop} {Q : β → Prop} {x : Fresh α} {y : Fresh β}

theorem Beyond.bind {f : α → Fresh β} (first : x.Beyond bound P) (next : ∀ a, P a → (f a).Beyond bound Q) :
    Beyond bound Q (x >>= f) := by
  intro s within
  obtain ⟨result, later⟩ := first s within
  exact next _ result _ later

theorem beyondPure {a : α} (h : P a) : Beyond bound P (pure a) := fun _ within => ⟨h, within⟩

theorem beyondNode : Beyond bound (fun _ => True) freshNode := fun _ within => ⟨trivial, within⟩

theorem beyondParam : Beyond bound (fun p => bound ≤ p) freshParam :=
  fun _ within => ⟨within, Nat.le_succ_of_le within⟩

theorem Beyond.inStep (first : x.Beyond bound P) (second : y.Beyond bound Q) :
    (Lockstep.building bound).rel (fun a b => P a ∧ Q b) (liftM x) (liftM y) := by
  intro s t within within'
  obtain ⟨result, later⟩ := first s within
  obtain ⟨result', later'⟩ := second t within'
  exact ⟨.ok ⟨result, result'⟩, later, later'⟩

end Fresh

end SymbolicQuery
