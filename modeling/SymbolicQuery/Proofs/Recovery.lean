import SymbolicQuery.Proofs.ReadingBack
import SymbolicQuery.Proofs.Substitution

/-! Types of what is read back. A conversion on the way changes numbers alone, so what is read below
it is the stored value, or a number of the type that the path went back to; either way a function
made by reading back keeps to its types on every value of the item. -/
namespace SymbolicQuery
open Results

namespace Expr

def Kept (a : Assignment) (n : Expr) : Prop := ∀ u, n.eval a = .ok u → n.ty.Holds u

variable {item e e' n : Expr} {path : Path} {a b : Assignment} {v : Value} {leaf : Expr → Prop}

theorem Descends.node (down : Descends item path n) : n ∈ item.nodes := by
  induction down with
  | here => exact selfNode item
  | field _ inside _ ih => exact nodesBelow ih (argumentInside inside)
  | base _ ih => exact nodesBelow ih List.mem_cons_self
  | binding _ inside _ ih => exact nodesBelow ih (bindingInside inside)
  | back _ _ ih => exact nodesBelow ih List.mem_cons_self

/-- What following a path comes to where the node at its end has a value: exactly that value if the
path takes no conversion back, and in any case that value unless it is a number. -/
structure Recovers (path : Path) (v : Value) (n : Expr) (w : Value) : Prop where
  exact : ¬ path.Converts → path.valueFrom v = .ok w
  kept : ∀ u, path.valueFrom v = .ok u → w.asFloat? = none → u = w
  holds : ∀ u, path.valueFrom v = .ok u → n.ty.Holds u

theorem Recovers.field {m : Member} {c : Expr} {w x : Value} (recovers : Recovers path v n w)
    (object : w.asFloat? = none) (read : w.read m.name = .ok x) (holds : c.ty.Holds x) :
    Recovers (path ++ [.read m]) v c x := by
  have reached : ∀ u, Path.valueFrom (path ++ [.read m]) v = .ok u → u = x := by
    intro u h
    rw [Path.valueSnoc] at h
    obtain ⟨t, before, last⟩ := okBind.mp h
    cases recovers.kept t before object
    exact Except.ok.inj (last.symm.trans read)
  refine ⟨fun straight => ?_, fun u h _ => reached u h, fun u h => ?_⟩
  · rw [Path.valueSnoc, recovers.exact fun ⟨t, inside⟩ => straight ⟨t, List.mem_append_left _ inside⟩]
    exact read
  · cases reached u h
    exact holds

theorem Recovers.back {i t c o} {w x : Value} (recovers : Recovers path v (.convert i t c o) w)
    (converted : x.convert c t = .ok w) (holds : o.ty.Holds x) :
    Recovers (path ++ [.convertBack o.ty]) v o x := by
  have reached : ∀ u, Path.valueFrom (path ++ [.convertBack o.ty]) v = .ok u → x.asFloat? = none →
      u = x := by
    intro u h other
    rw [Path.valueSnoc] at h
    obtain ⟨y, before, last⟩ := okBind.mp h
    cases Ty.convertKeeps other converted
    cases recovers.kept y before other
    exact Ty.convertKeeps other last
  refine ⟨fun straight => ?_, reached, fun u h => ?_⟩
  · exact absurd ⟨o.ty, List.mem_append_right _ List.mem_cons_self⟩ straight
  · by_cases number : x.asFloat? = none
    · cases reached u h number
      exact holds
    · rw [Path.valueSnoc] at h
      obtain ⟨y, before, last⟩ := okBind.mp h
      exact Ty.convertHolds (holds.scalar number) last

theorem descendsTyped (sound : item.Sound leaf) (down : Descends item path n) :
    path.typeFrom item.ty = n.ty := by
  induction down with
  | here => rfl
  | field outer inside _ _ =>
    rw [Path.typeSnoc]
    cases (sound.node outer.node).here.1 with
    | construct each => exact (List.forall₂_iff_zip.mp each).2 inside
  | base outer _ => cases (sound.node outer.node).here.1
  | binding outer _ _ _ => cases (sound.node outer.node).here.1
  | back _ _ _ => exact Path.typeSnoc ..

theorem descendsRecovers (sound : item.Sound leaf) (leaves : ∀ n, leaf n → n.Kept a)
    (evaluates : item.eval a = .ok v) (down : Descends item path n) :
    ∃ w, n.eval a = .ok w ∧ Recovers path v n w := by
  induction down with
  | here =>
    refine ⟨v, evaluates, fun _ => rfl, fun u h _ => ?_, fun u h => ?_⟩
    · exact (Except.ok.inj h).symm
    · cases h
      exact sound.evalHolds leaves evaluates
  | field outer inside _ ih =>
    obtain ⟨w, value, recovers⟩ := ih
    have node := sound.node outer.node
    obtain ⟨x, stored, read⟩ := constructReads value node.here.2 inside
    obtain ⟨fields, rfl, _⟩ := constructValue value
    have part : (_ : Expr).Sound leaf := node.part (argumentInside inside)
    exact ⟨x, stored, recovers.field rfl read (part.evalHolds leaves stored)⟩
  | base outer _ => cases (sound.node outer.node).here.1
  | binding outer _ _ _ => cases (sound.node outer.node).here.1
  | back outer _ ih =>
    obtain ⟨w, value, recovers⟩ := ih
    have node := sound.node outer.node
    unfold eval at value
    obtain ⟨x, operand, converted⟩ := okBind.mp value
    have part : (_ : Expr).Sound leaf := node.part List.mem_cons_self
    exact ⟨x, operand, recovers.back converted (part.evalHolds leaves operand)⟩

theorem keptStep (here : e'.Kept b) (nodes : e'.nodes = e' :: e.nodes) (before : e.Every (Kept b)) :
    e'.Every (Kept b) := by
  intro k inside
  rw [nodes] at inside
  rcases List.mem_cons.mp inside with rfl | below
  · exact here
  · exact before k below

theorem followKept {i : Nat} {input : Param} (sound : item.Sound leaf) (leaves : ∀ n, leaf n → n.Kept a)
    (evaluates : item.eval a = .ok v) (ty : input.ty = item.ty) (bound : b.param input = some v)
    (down : Descends item path n) (h : yields (path.follow (.parameter i input)) e') :
    e'.Every (Kept b) ∧ e'.ty = n.ty := by
  have last : ∀ {path n e'}, Descends item path n → yields (Path.follow path (.parameter i input)) e' →
      e'.Kept b ∧ e'.ty = n.ty := by
    intro path n e' down h
    obtain ⟨w, _, recovers⟩ := descendsRecovers sound leaves evaluates down
    have same : e'.ty = n.ty := by rw [Path.followTy h, ← descendsTyped sound down]; simp only [Expr.ty, ty]
    refine ⟨fun u value => ?_, same⟩
    rw [Path.followEval h] at value
    simp only [eval, bound] at value
    exact same ▸ recovers.holds u value
  refine ⟨?_, (last down h).2⟩
  induction down generalizing e' with
  | here =>
    have here := (last .here h).1
    cases ofPure h
    intro k inside
    cases List.mem_singleton.mp inside
    exact here
  | field outer inside allowed ih =>
    obtain ⟨_, first, step⟩ := Path.followSnoc h
    exact keptStep (last (.field outer inside allowed) h).1 (Step.takeNodes step) (ih first)
  | base _ ih => exact ih h
  | binding outer inside allowed ih =>
    obtain ⟨_, first, step⟩ := Path.followSnoc h
    exact keptStep (last (.binding outer inside allowed) h).1 (Step.takeNodes step) (ih first)
  | back outer allowed ih =>
    obtain ⟨_, first, step⟩ := Path.followSnoc h
    exact keptStep (last (.back outer allowed) h).1 (Step.takeNodes step) (ih first)

theorem Sound.free {s : Source} (sound : e.Sound (OfSource s)) (i : Nat) (p : Param) :
    .parameter i p ∉ e.nodes := by
  intro inside
  cases (sound _ inside).1 with
  | parameter known =>
    obtain ⟨_, other⟩ := known
    cases other

theorem Sound.source {i : Nat} {s s' : Source} (sound : (Expr.reference i s').Sound (OfSource s)) :
    s' = s := by
  cases sound.here.1 with
  | reference known =>
    obtain ⟨_, same⟩ := known
    injection same

theorem readingBackKept {s : Source} {input : Param} (sound : item.Sound (OfSource s))
    (leaves : ∀ n, OfSource s n → n.Kept a) (evaluates : item.eval a = .ok v) (ty : input.ty = item.ty)
    (bound : b.param input = some v) (upon : e.Sound (OfSource s))
    (h : yields ((Pass.readingBack item input).run e) e') : e'.Every (Kept b) ∧ e'.ty = e.ty := by
  induction e using partsInduction generalizing e' with
  | step e ih =>
    rcases Pass.readingBackStep h with ⟨path, i, back, followed⟩ | ⟨_, other, rebuilt⟩
    · rcases back with found | ⟨_, j, s', rfl, found⟩
      · exact followKept sound leaves evaluates ty bound (locateDescends found) followed
      · obtain ⟨k, t, _, down⟩ := sourcePathDescends found
        obtain ⟨kept, same⟩ := followKept sound leaves evaluates ty bound down followed
        cases Sound.source (sound.node down.node)
        cases upon.source
        exact ⟨kept, same⟩
    · have parts : ∀ c ∈ e.parts, ∀ c', yields ((Pass.readingBack item input).run c) c' →
          c'.Every (Kept b) ∧ c'.ty = c.ty := fun c inside c' made => ih c inside (upon.part inside) made
      have types := (rebuilt.mono fun c inside c' made => (parts c inside c' made).2 :
        Rebuilt (fun c c' => c'.ty = c.ty) e e')
      have noLeaf : ¬ OfSource s e := fun ⟨j, same⟩ => other j s same
      have typed : e'.Typed (fun _ => False) := upon.here.1.rebuilt types fun leaf => noLeaf leaf
      have below : ∀ c' ∈ e'.parts, c'.Every (Kept b) := fun c' inside => by
        obtain ⟨c, part, made⟩ := partFrom rebuilt.parts inside
        exact (parts c part c' made).1
      refine ⟨everyIff.mpr ⟨fun u value => ?_, below⟩, types.ty⟩
      exact typed.evalHolds (rebuilt.namesOnce upon.here.1 upon.here.2) False.elim
        (fun c' inside => (below c' inside).here) value

end Expr

end SymbolicQuery
