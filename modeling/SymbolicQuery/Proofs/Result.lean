import Mathlib.Data.List.Forall2
import SymbolicQuery.Reading

/-! What work can come to: the results that it can have and the errors that it can fail with, from
whatever state it starts. Work that cannot fail has a result from every state. -/
namespace SymbolicQuery

/- The law of sequencing goes one way only: the state that the first part leaves
need not be one from which the second part reaches its result. -/
class Results (m : Type → Type) [Monad m] where
  yields {α : Type} : m α → α → Prop
  ofPure {α : Type} {a b : α} : yields (pure a) b → a = b
  ofBind {α β : Type} {x : m α} {f : α → m β} {b : β} :
    yields (x >>= f) b → ∃ a, yields x a ∧ yields (f a) b

export Results (yields)

instance : Results Id where
  yields x a := x = a
  ofPure h := h
  ofBind h := ⟨_, rfl, h⟩

instance {ε : Type} : Results (Except ε) where
  yields x a := x = .ok a
  ofPure h := by cases h; rfl
  ofBind {_ _ x _ _} h := by
    cases x with
    | error e => cases h
    | ok a => exact ⟨a, rfl, h⟩

instance {σ : Type} {m : Type → Type} [Monad m] [Results m] : Results (StateT σ m) where
  yields x a := ∃ s s', yields (x.run s) (a, s')
  ofPure h := by
    obtain ⟨s, s', h⟩ := h
    cases Results.ofPure h
    rfl
  ofBind h := by
    obtain ⟨s, s', h⟩ := h
    obtain ⟨⟨a, t⟩, first, second⟩ := Results.ofBind h
    exact ⟨a, ⟨s, t, first⟩, ⟨t, s', second⟩⟩

instance {ε : Type} {m : Type → Type} [Monad m] [Results m] : Results (ExceptT ε m) where
  yields x a := yields x.run (.ok a)
  ofPure h := by
    cases Results.ofPure h
    rfl
  ofBind h := by
    obtain ⟨r, first, second⟩ := Results.ofBind h
    cases r with
    | error e => cases Results.ofPure second
    | ok a => exact ⟨a, first, second⟩

theorem okBind {ε α β : Type} {x : Except ε α} {f : α → Except ε β} {b : β} :
    x >>= f = .ok b ↔ ∃ a, x = .ok a ∧ f a = .ok b := by
  cases x <;> simp [bind, Except.bind]

theorem okMap {ε α β : Type} {x : Except ε α} {f : α → β} {b : β} (h : x.map f = .ok b) :
    ∃ a, x = .ok a ∧ f a = b := by
  cases x with
  | error e => cases h
  | ok a => cases h; exact ⟨a, rfl, rfl⟩

def fails {ε α : Type} {m : Type → Type} [Monad m] [Results m] (x : ExceptT ε m α) (e : ε) : Prop :=
  yields x.run (.error e)

namespace Results
variable {ε σ α β : Type} {m : Type → Type} [Monad m] [Results m]

theorem ofMap [LawfulMonad m] {f : α → β} {x : m α} {b : β} (h : yields (f <$> x) b) :
    ∃ a, yields x a ∧ f a = b := by
  rw [← bind_pure_comp] at h
  obtain ⟨a, first, last⟩ := ofBind h
  exact ⟨a, first, ofPure last⟩

theorem ofLift {x : m α} {a : α} (h : yields (liftM x : StateT σ m α) a) : yields x a := by
  obtain ⟨s, s', h⟩ := h
  obtain ⟨b, first, last⟩ := ofBind h
  cases ofPure last
  exact first

theorem ofLiftT [LawfulMonad m] {x : m α} {a : α} (h : yields (liftM x : ExceptT ε m α) a) :
    yields x a := by
  obtain ⟨b, first, last⟩ := ofMap (m := m) h
  cases last
  exact first

theorem ofExcept {x : Except ε α} {a : α} (h : yields (liftM x : ExceptT ε m α) a) : x = .ok a :=
  ofPure h

theorem notThrow {e : ε} {a : α} (h : yields (throw e : ExceptT ε m α) a) : False := by
  cases ofPure h

theorem ofMapM [LawfulMonad m] {f : α → m β} {as : List α} {bs : List β}
    (h : yields (as.mapM f) bs) : List.Forall₂ (fun a b => yields (f a) b) as bs := by
  induction as generalizing bs with
  | nil =>
    cases ofPure h
    exact .nil
  | cons a as ih =>
    rw [List.mapM_cons] at h
    obtain ⟨b, head, h⟩ := ofBind h
    obtain ⟨rest, tail, h⟩ := ofBind h
    cases ofPure h
    exact .cons head (ih tail)

theorem failsBind {x : ExceptT ε m α} {f : α → ExceptT ε m β} {e : ε} (h : fails (x >>= f) e) :
    fails x e ∨ ∃ a, yields x a ∧ fails (f a) e := by
  obtain ⟨r, first, second⟩ := ofBind h
  cases r with
  | error e' =>
    cases ofPure second
    exact .inl first
  | ok a => exact .inr ⟨a, first, second⟩

theorem failsPure {a : α} {e : ε} (h : fails (pure a : ExceptT ε m α) e) : False := by
  cases ofPure h

theorem failsThrow {e e' : ε} (h : fails (throw e : ExceptT ε m α) e') : e = e' := by
  cases ofPure h
  rfl

theorem failsLift [LawfulMonad m] {x : m α} {e : ε} (h : fails (liftM x : ExceptT ε m α) e) :
    False := by
  obtain ⟨b, _, last⟩ := ofMap (m := m) h
  cases last

theorem failsExcept {x : Except ε α} {e : ε} (h : fails (liftM x : ExceptT ε m α) e) :
    x = .error e := ofPure h

end Results

namespace Build
open Results
variable {α : Type}

theorem runs {x : Build α} (safe : ∀ e, ¬ fails x e) (s : Supply) :
    ∃ a s', x.run s = (.ok a, s') ∧ yields x a := by
  cases run : x.run s with
  | mk r s' =>
    cases r with
    | error e => exact absurd ⟨s, s', run⟩ (safe e)
    | ok a => exact ⟨a, s', rfl, s, s', run⟩

theorem runThen {ε β : Type} {x : ExceptT ε Fresh α} {f : α → ExceptT ε Fresh β} {a : α} {s s₁ : Supply}
    (first : x.run s = (.ok a, s₁)) : (x >>= f).run s = (f a).run s₁ := by
  change ExceptT.bindCont f (x.run s).1 (x.run s).2 = _
  rw [first]
  rfl

theorem stopThen {ε β : Type} {x : ExceptT ε Fresh α} {f : α → ExceptT ε Fresh β} {e : ε} {s s₁ : Supply}
    (first : x.run s = (.error e, s₁)) : (x >>= f).run s = (.error e, s₁) := by
  change ExceptT.bindCont f (x.run s).1 (x.run s).2 = _
  rw [first]
  rfl

theorem okRun {x : Build α} {s : Supply} (ok : (x.run s).1.isOk = true) :
    ∃ a s', x.run s = (.ok a, s') := by
  cases run : x.run s with
  | mk r s' =>
    cases r with
    | error e => rw [run] at ok; cases ok
    | ok a => exact ⟨a, s', rfl⟩

theorem ofEnsure {condition : Bool} {error : QueryError} {u : Unit}
    (h : yields (ensure condition error) u) : condition = true := by
  unfold ensure at h
  split at h
  · assumption
  · exact (notThrow h).elim

theorem failsEnsure {condition : Bool} {error e : QueryError}
    (h : fails (ensure condition error) e) : condition = false ∧ error = e := by
  unfold ensure at h
  split at h
  · exact (failsPure h).elim
  · rename_i refused
    exact ⟨by simpa using refused, failsThrow h⟩

end Build

end SymbolicQuery
