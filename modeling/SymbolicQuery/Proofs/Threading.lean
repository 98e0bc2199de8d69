import Mathlib.Order.Defs.PartialOrder
import SymbolicQuery.Proofs.Result
import SymbolicQuery.Query.OfChain

/-! Work from one state to another. What work can come to is taken apart with the states in between, so
identities that are given out on the way can be told from those that were there before. -/
namespace SymbolicQuery
open Results

class Threaded (m : Type → Type) (σ : outParam Type) [Monad m] [Results m] where
  leads {α : Type} : m α → σ → α → σ → Prop
  ofPure {α : Type} {a b : α} {s t : σ} : leads (pure a) s b t → a = b ∧ s = t
  ofBind {α β : Type} {x : m α} {f : α → m β} {s t : σ} {b : β} :
    leads (x >>= f) s b t → ∃ a u, leads x s a u ∧ leads (f a) u b t
  yielded {α : Type} {x : m α} {a : α} : yields x a ↔ ∃ s t, leads x s a t

export Threaded (leads)

instance : Threaded Fresh Supply where
  leads x s a t := x.run s = (a, t)
  ofPure h := by cases h; exact ⟨rfl, rfl⟩
  ofBind h := ⟨_, _, rfl, h⟩
  yielded := Iff.rfl

instance {τ σ : Type} {m : Type → Type} [Monad m] [Results m] [Threaded m σ] : Threaded (StateT τ m) (τ × σ) where
  leads x s a t := leads (x.run s.1) s.2 (a, t.1) t.2
  ofPure {_ _ _ s t} h := by
    obtain ⟨same, rest⟩ := Threaded.ofPure h
    obtain ⟨result, state⟩ := Prod.mk.inj same
    exact ⟨result, Prod.ext state rest⟩
  ofBind {_ _ _ _ s t _} h := by
    obtain ⟨⟨a, r⟩, u, first, second⟩ := Threaded.ofBind h
    exact ⟨a, (r, u), first, second⟩
  yielded {_ x a} := by
    constructor
    · rintro ⟨r, r', h⟩
      obtain ⟨s, t, h⟩ := Threaded.yielded.mp h
      exact ⟨(r, s), (r', t), h⟩
    · rintro ⟨s, t, h⟩
      exact ⟨s.1, t.1, Threaded.yielded.mpr ⟨s.2, t.2, h⟩⟩

instance {ε σ : Type} {m : Type → Type} [Monad m] [Results m] [Threaded m σ] : Threaded (ExceptT ε m) σ where
  leads x s a t := leads x.run s (.ok a) t
  ofPure h := by
    obtain ⟨same, rest⟩ := Threaded.ofPure h
    cases same
    exact ⟨rfl, rest⟩
  ofBind h := by
    obtain ⟨r, u, first, second⟩ := Threaded.ofBind h
    cases r with
    | error e => cases (Threaded.ofPure second).1
    | ok a => exact ⟨a, u, first, second⟩
  yielded := Threaded.yielded (m := m)

namespace Threaded
variable {ε σ τ α β : Type} {m : Type → Type} [Monad m] [Results m] [Threaded m σ] {s t : σ} {a : α}

theorem yields {x : m α} (h : leads x s a t) : Results.yields x a := yielded.mpr ⟨s, t, h⟩

theorem ofMap [LawfulMonad m] {f : β → α} {x : m β} (h : leads (f <$> x) s a t) :
    ∃ b, leads x s b t ∧ f b = a := by
  rw [← bind_pure_comp] at h
  obtain ⟨b, u, first, last⟩ := ofBind h
  obtain ⟨same, rfl⟩ := ofPure last
  exact ⟨b, first, same⟩

theorem ofLift {x : m α} {r r' : τ} (h : leads (liftM x : StateT τ m α) (r, s) a (r', t)) :
    r = r' ∧ leads x s a t := by
  obtain ⟨b, u, first, last⟩ := ofBind h
  obtain ⟨same, rfl⟩ := ofPure last
  cases same
  exact ⟨rfl, first⟩

theorem ofLiftT [LawfulMonad m] {x : m α} (h : leads (liftM x : ExceptT ε m α) s a t) : leads x s a t := by
  obtain ⟨b, first, last⟩ := ofMap (m := m) h
  cases last
  exact first

theorem ofExcept {x : Except ε α} (h : leads (liftM x : ExceptT ε m α) s a t) : x = .ok a ∧ s = t :=
  ofPure (m := m) h

theorem notThrow {e : ε} (h : leads (throw e : ExceptT ε m α) s a t) : False := by
  cases (ofPure (m := m) h).1

end Threaded

inductive Along {α β σ : Type} (R : α → σ → β → σ → Prop) : List α → σ → List β → σ → Prop where
  | nil {s : σ} : Along R [] s [] s
  | cons {a : α} {b : β} {as : List α} {bs : List β} {s u t : σ} (head : R a s b u)
      (later : Along R as u bs t) : Along R (a :: as) s (b :: bs) t

theorem Along.append {α β σ : Type} {R : α → σ → β → σ → Prop} {as cs : List α} {bs ds : List β} {s u t : σ}
    (first : Along R as s bs u) (next : Along R cs u ds t) : Along R (as ++ cs) s (bs ++ ds) t := by
  induction first with
  | nil => exact next
  | cons head _ ih => exact .cons head (ih next)

theorem Along.related {α β σ : Type} {R : α → σ → β → σ → Prop} {S : α → β → Prop} {as : List α} {bs : List β}
    {s t : σ} (along : Along R as s bs t) (each : ∀ {a s b t}, R a s b t → S a b) : List.Forall₂ S as bs := by
  induction along with
  | nil => exact .nil
  | cons head _ ih => exact .cons (each head) ih

theorem Along.grows {α β σ : Type} {R : α → σ → β → σ → Prop} {I : σ → Prop} [Preorder σ] {S : σ → α → β → Prop}
    {as : List α} {bs : List β} {s t : σ} (along : Along R as s bs t) (start : I s)
    (mono : ∀ {s t : σ}, s ≤ t → ∀ a b, S s a b → S t a b)
    (each : ∀ a ∈ as, ∀ {s b t}, I s → R a s b t → I t ∧ s ≤ t ∧ S t a b) :
    I t ∧ s ≤ t ∧ List.Forall₂ (S t) as bs := by
  induction along with
  | nil => exact ⟨start, le_refl _, .nil⟩
  | cons head _ ih =>
    obtain ⟨here, later⟩ := List.forall_mem_cons.mp each
    obtain ⟨kept, first, made⟩ := here start head
    obtain ⟨kept, rest, others⟩ := ih kept later
    exact ⟨kept, le_trans first rest, .cons (mono rest _ _ made) others⟩

theorem Threaded.ofMapM {α β σ : Type} {m : Type → Type} [Monad m] [LawfulMonad m] [Results m] [Threaded m σ]
    {f : α → m β} {as : List α} {bs : List β} {s t : σ} (h : leads (as.mapM f) s bs t) :
    Along (fun a s b t => leads (f a) s b t) as s bs t := by
  induction as generalizing s bs with
  | nil =>
    obtain ⟨rfl, rfl⟩ := ofPure h
    exact .nil
  | cons a as ih =>
    rw [List.mapM_cons] at h
    obtain ⟨b, u, head, h⟩ := ofBind h
    obtain ⟨rest, v, tail, h⟩ := ofBind h
    obtain ⟨rfl, rfl⟩ := ofPure h
    exact .cons head (ih tail)

namespace Build
open Threaded
variable {s t : Supply} {a : Nat}

theorem leadsEnsure {condition : Bool} {error : QueryError} {u : Unit} (h : leads (ensure condition error) s u t) :
    condition = true ∧ s = t := by
  unfold ensure at h
  split at h
  · rename_i holds
    exact ⟨holds, (ofPure h).2⟩
  · exact (notThrow h).elim

theorem leadsNode (h : leads freshNode s a t) : s.node = a ∧ { s with node := s.node + 1 } = t := by
  cases h
  exact ⟨rfl, rfl⟩

theorem leadsSource (h : leads freshSource s a t) : s.source = a ∧ { s with source := s.source + 1 } = t := by
  cases h
  exact ⟨rfl, rfl⟩

theorem leadsReference {source : Source} {e : Expr} (h : leads (reference source) s e t) :
    .reference s.node source = e ∧ { s with node := s.node + 1 } = t := by
  cases h
  exact ⟨rfl, rfl⟩

end Build

end SymbolicQuery
