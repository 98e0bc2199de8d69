import SymbolicQuery.Proofs.Result
import SymbolicQuery.Query.Execute

/-! Work on items that stands for work on values. Where the functions on both sides give the same
results, items are kept, and ordered, as the values that they stand for. -/
namespace SymbolicQuery
open Results

variable {α β γ δ : Type}

def Tracks (S : α → β → Prop) (x : Except QueryError α) (y : Except QueryError β) : Prop :=
  ∀ b, y = .ok b → ∃ a, x = .ok a ∧ S a b

section Tracks
variable {R : α → β → Prop} {S : γ → δ → Prop}

theorem tracksOk {a : α} {b : β} (related : R a b) : Tracks R (.ok a) (.ok b) := by
  intro b' same
  cases same
  exact ⟨a, rfl, related⟩

theorem tracksBind {x : Except QueryError α} {y : Except QueryError β} {f : α → Except QueryError γ}
    {g : β → Except QueryError δ} (first : Tracks R x y) (next : ∀ a b, R a b → Tracks S (f a) (g b)) :
    Tracks S (x >>= f) (y >>= g) := by
  intro d h
  obtain ⟨b, head, tail⟩ := okBind.mp h
  obtain ⟨a, head', related⟩ := first b head
  obtain ⟨c, tail', related'⟩ := next a b related d tail
  exact ⟨c, okBind.mpr ⟨a, head', tail'⟩, related'⟩

theorem tracksMap {f : α → Except QueryError γ} {g : β → Except QueryError δ} {as : List α} {bs : List β}
    (along : List.Forall₂ R as bs) (each : ∀ a b, R a b → Tracks S (f a) (g b)) :
    Tracks (List.Forall₂ S) (as.mapM f) (bs.mapM g) := by
  induction along with
  | nil => exact tracksOk .nil
  | cons head _ ih =>
    rw [List.mapM_cons, List.mapM_cons]
    exact tracksBind (each _ _ head) fun c d related => tracksBind ih fun cs ds later =>
      tracksOk (.cons related later)

theorem Sorter.runFailed {ι ε : Type} {order : ι → ι → Except ε Ordering} {stop e : ε} {t : Sorter ι α} {a : α} :
    t.run order stop (some e) ≠ .ok a := by
  induction t with
  | done _ => exact nofun
  | stopped => exact nofun
  | compares x y next ih =>
    rw [run]
    cases order x y with
    | ok o => exact ih (o == .lt)
    | error _ => exact ih false

theorem Sorter.runTracks {ι : Type} {order order' : ι → ι → Except QueryError Ordering} {stop : QueryError}
    (tracks : ∀ i j, Tracks Eq (order i j) (order' i j)) {t : Sorter ι α} :
    Tracks Eq (t.run order stop none) (t.run order' stop none) := by
  induction t with
  | done a => exact tracksOk rfl
  | stopped => exact fun _ none => by cases none
  | compares x y next ih =>
    have step := tracks x y
    intro b ended
    rw [run] at ended
    cases known : order' x y with
    | error e =>
      rw [known] at ended
      exact absurd ended runFailed
    | ok o =>
      obtain ⟨o', known', rfl⟩ := step o known
      rw [known] at ended
      rw [run, known']
      exact ih (o' == .lt) b ended

end Tracks

namespace Query
variable {R : Value → Value → Prop} {f g : Closed} {xs ys : List Value}

def Follows (R : Value → Value → Prop) (g f : Closed) : Prop :=
  ∀ x y, R x y → Tracks Eq (g.call [x]) (f.call [y])

theorem selectTracks (along : List.Forall₂ R xs ys) (follows : Follows R g f) :
    Tracks (List.Forall₂ R) (select g xs) (select f ys) := by
  induction along with
  | nil => exact tracksOk .nil
  | cons head _ ih =>
    unfold select
    refine tracksBind (follows _ _ head) ?_
    intro w w' same
    subst same
    refine tracksBind ih fun kept kept' later => tracksOk ?_
    split
    · exact .cons head later
    · exact later

def FollowsKey (R : Value → Value → Prop) (k l : KeyFunction) : Prop :=
  Follows R k.function l.function ∧ k.descending = l.descending

def SameKeys (R : Value → Value → Prop) (k l : Keyed) : Prop := k.1 = l.1 ∧ R k.2 l.2

variable {gs fs : List KeyFunction}

theorem keysTrack (follow : List.Forall₂ (FollowsKey R) gs fs) {x y : Value} (related : R x y) :
    Tracks (SameKeys R) (keysOf gs x) (keysOf fs y) := by
  refine tracksBind (R := List.Forall₂ Eq) ?_ fun as bs same => tracksOk ⟨?_, related⟩
  · exact tracksMap follow fun k l both => both.1 x y related
  · exact List.forall₂_eq_eq_eq ▸ same

theorem compareTracks (follow : List.Forall₂ (FollowsKey R) gs fs) {as bs : List Value} :
    Tracks Eq (compareKeys gs as bs) (compareKeys fs as bs) := by
  induction follow generalizing as bs with
  | nil => exact tracksOk rfl
  | cons head _ ih =>
    cases as with
    | nil => exact tracksOk rfl
    | cons a as =>
      cases bs with
      | nil => exact tracksOk rfl
      | cons b bs =>
        unfold compareKeys
        cases a.compare b with
        | none => exact fun _ none => by cases none
        | some o =>
          rw [head.2]
          cases o with
          | eq => exact ih
          | lt | gt => exact tracksOk rfl

theorem arrangeCast {n m : Nat} (same : n = m) (fs : List KeyFunction) (keyed : Fin m → Keyed) :
    arrange fs keyed = arrange fs fun i => keyed (i.cast same) := by
  subst same
  rfl

theorem arrangeTracks (follow : List.Forall₂ (FollowsKey R) gs fs) {n : Nat} {ks ls : Fin n → Keyed}
    (along : ∀ i, SameKeys R (ks i) (ls i)) : Tracks (List.Forall₂ R) (arrange gs ks) (arrange fs ls) := by
  refine tracksBind (R := Eq) (Sorter.runTracks fun i j => ?_) fun places places' same => tracksOk ?_
  · rw [(along i).1, (along j).1]
    exact compareTracks follow
  · subst same
    rw [List.forall₂_map_left_iff, List.forall₂_map_right_iff, List.forall₂_same]
    exact fun i _ => (along i).2

theorem sortTracks (follow : List.Forall₂ (FollowsKey R) gs fs) (along : List.Forall₂ R xs ys) :
    Tracks (List.Forall₂ R) (sort gs xs) (sort fs ys) := by
  refine tracksBind (R := List.Forall₂ (SameKeys R)) (tracksMap along fun x y => keysTrack follow) fun ks ls known => ?_
  rw [arrangeCast known.length_eq fs]
  exact arrangeTracks follow fun i => known.get i.isLt (known.length_eq ▸ i.isLt)

end Query

end SymbolicQuery
