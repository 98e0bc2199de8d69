import SymbolicQuery.Proofs.Assembly
import SymbolicQuery.Proofs.Recovery

/-! Expressions that were put together over an item. Below nodes of their own stand nodes that the item
stores, and no reference but those; so each is read back, by the paths of the stored nodes alone. -/
namespace SymbolicQuery
open Results

namespace Expr

inductive Composed (item : Expr) : Expr → Prop where
  | stored {path e} (down : Descends item path e) : Composed item e
  | made {e} (other : ∀ i s, e ≠ .reference i s) (parts : ∀ c ∈ e.parts, Composed item c) : Composed item e

variable {item e e' n : Expr} {leaf : Expr → Prop} {p : Param}

theorem composedArgument {o arg : Expr} {m : Member} (sound : item.Sound leaf) (composed : Composed item o)
    {further : Expr → Prop} (typed : o.Sound further) (found : o.argumentFor? m = some arg) :
    Composed item arg := by
  cases composed with
  | @stored path _ down =>
    have types := descendsTyped sound down
    cases typed.here.1 with
    | @construct i o es each =>
      obtain ⟨⟨m', arg'⟩, first, last⟩ := Option.map_eq_some_iff.mp found
      cases last
      have inside := List.mem_of_find?_eq_some first
      refine .stored (.field down inside ?_)
      rw [types]
      exact List.contains_iff_mem.mpr (List.of_mem_zip inside).1
    | _ => cases found
  | made _ parts => exact parts arg (argumentPart found)

theorem puttingComposed (h : yields ((Pass.putting p item).run e) e') (body : e.Sound (OfParam p))
    (sound : item.Sound leaf) (ty : item.ty = p.ty) : Composed item e' := by
  induction e using partsInduction generalizing e' with
  | step e ih =>
    rcases puttingStep h with ⟨_, rfl⟩ | ⟨other, n, rebuilt, rfl⟩
    · exact .stored .here
    · have parts : ∀ c' ∈ n.parts, Composed item c' ∧ c'.Sound leaf := fun c' inside => by
        obtain ⟨c, part, made⟩ := partFrom rebuilt.parts inside
        exact ⟨ih c part made (body.part part), (puttingSound made (body.part part) sound ty).1⟩
      rcases foldReadCases n with same | ⟨i, o, m, arg, reads, found, folded⟩
      · rw [same]
        refine .made (fun i s referred => ?_) fun c' inside => (parts c' inside).1
        subst referred
        cases rebuilt
        cases body.here.1 with
        | reference known =>
          obtain ⟨_, none⟩ := known
          cases none
      · rw [folded]
        obtain ⟨composed, typed⟩ := parts o (by rcases reads with rfl | rfl <;> exact List.mem_cons_self)
        exact composedArgument sound composed typed found

theorem Composed.exposed (composed : Composed item e) (shown : item.Exposed e n) : Composed item n := by
  induction shown with
  | root => exact composed
  | part _ opened inside ih =>
    cases ih with
    | stored down =>
      obtain ⟨path, found⟩ := descendsLocate down
      cases opened.symm.trans found
    | made _ parts => exact parts _ inside

theorem Composed.located {i : Nat} {s : Source} (composed : Composed item (.reference i s)) :
    (Expr.reference i s).locate item ≠ none := by
  cases composed with
  | stored down =>
    obtain ⟨path, found⟩ := descendsLocate down
    simp [found]
  | made other => exact absurd rfl (other i s)

/-- What is composed over an item gives its value from the value of the item, if every node that is read
back through a conversion comes back unchanged. -/
theorem Composed.readsBack {s : Source} {a b : Assignment} {v w : Value} {input : Param}
    (composed : Composed item e) (sound : item.Sound (OfSource s)) (upon : e.Sound (OfSource s))
    (leaves : ∀ n, OfSource s n → n.Kept a) (evaluates : item.eval a = .ok v) (bound : b.param input = some v)
    (back : ∀ n path, item.Exposed e n → n.locate item = some path → path.Converts →
      path.valueFrom v = n.eval a)
    (h : yields ((Pass.readingBack item input).run e) e') (value : e.eval a = .ok w) :
    e'.eval b = .ok w := by
  refine Pass.readingBackAgrees .atLeast h bound ?_ ?_ w value
  · intro n path shown by_ u stored
    rcases by_ with found | ⟨absent, i, s, rfl, _⟩
    · by_cases converts : path.Converts
      · exact (back n path shown found converts).trans stored
      · obtain ⟨w, same, recovers⟩ := descendsRecovers sound leaves evaluates (locateDescends found)
        cases stored.symm.trans same
        exact recovers.exact converts
    · exact absurd absent (composed.exposed shown).located
  · exact fun i p shown => absurd shown.node (upon.free i p)

end Expr

end SymbolicQuery
