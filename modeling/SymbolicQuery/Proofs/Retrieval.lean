import SymbolicQuery.Proofs.Construction
import SymbolicQuery.Proofs.Descent
import SymbolicQuery.Proofs.ReadingBack

/-! Reading back from values. Where an item only reads and constructs, and assigns no member name
twice, following the way down to a node from a value of the item gives the value of the node. -/
namespace SymbolicQuery
open Results

namespace Expr

/-- The nodes that an item can be asked for: what its constructions assign, not below conversions. -/
inductive Spine (item : Expr) : Expr → Prop where
  | item : Spine item item
  | argument {i t ms es m e} (outer : Spine item (.construct i t ms es)) (inside : (m, e) ∈ ms.zip es) :
      Spine item e
  | base {i t b bs} (outer : Spine item (.populate i t b bs)) : Spine item b
  | binding {i t b bs m e} (outer : Spine item (.populate i t b bs)) (inside : .assign m e ∈ bs) :
      Spine item e

def BareBase (item n : Expr) : Prop := ∃ i t bs, .populate i t n bs ∈ item.nodes

/-- Items whose spine can be read: bindings follow a construction, nothing is converted, and no
construction assigns a member name twice. -/
structure Readable (item : Expr) : Prop where
  formed : ∀ {n}, item.BareBase n → ∃ i t ms es, n = .construct i t ms es
  unconverted : ∀ {i t c o}, ¬ Spine item (.convert i t c o)
  once : ∀ {n}, Spine item n → n.NamesOnce

variable {item e n : Expr} {path : Path} {a : Assignment} {v : Value}

theorem Spine.node (spine : Spine item n) : n ∈ item.nodes := by
  induction spine with
  | item => exact selfNode item
  | argument _ inside ih => exact nodesBelow ih (argumentInside inside)
  | base _ ih => exact nodesBelow ih List.mem_cons_self
  | binding _ inside ih => exact nodesBelow ih (bindingInside inside)

theorem Descends.spine (unconverted : ∀ {i t c o}, ¬ Spine item (.convert i t c o))
    (down : Descends item path n) : Spine item n ∧ ¬ path.Converts := by
  have read : ∀ {path : Path} {m : Member}, ¬ path.Converts → ¬ Path.Converts (path ++ [.read m]) := by
    intro path m straight converts
    obtain ⟨ty, inside⟩ := converts
    rcases List.mem_append.mp inside with before | last
    · exact straight ⟨ty, before⟩
    · cases List.mem_singleton.mp last
  induction down with
  | here => exact ⟨.item, fun ⟨_, inside⟩ => by cases inside⟩
  | field _ inside _ ih => exact ⟨.argument ih.1 inside, read ih.2⟩
  | base _ ih => exact ⟨.base ih.1, ih.2⟩
  | binding _ inside _ ih => exact ⟨.binding ih.1 inside, read ih.2⟩
  | back _ _ ih => exact absurd ih.1 unconverted

/-- What stands at the end of a way down: the value of the node, or, for the construction under
bindings, the value that the bindings complete. -/
def StandsFor (a : Assignment) (item n : Expr) (w : Value) : Prop :=
  n.eval a = .ok w ∨
    ∃ i t bs, Spine item (.populate i t n bs) ∧ (Expr.populate i t n bs).eval a = .ok w

theorem StandsFor.exact {w : Value} (stands : StandsFor a item n w) (bare : ¬ item.BareBase n) :
    n.eval a = .ok w := by
  rcases stands with value | ⟨i, t, bs, spine, _⟩
  · exact value
  · exact absurd ⟨i, t, bs, spine.node⟩ bare

theorem Readable.notBare (readable : item.Readable) {i t b bs} : ¬ item.BareBase (.populate i t b bs) := by
  -- Bindings follow a construction, so they never follow other bindings.
  intro bare
  obtain ⟨_, _, _, _, same⟩ := readable.formed bare
  cases same

theorem StandsFor.argument (readable : item.Readable) {i t ms es m w}
    (stands : StandsFor a item (.construct i t ms es) w) (spine : Spine item (.construct i t ms es))
    (inside : (m, e) ∈ ms.zip es) : ∃ u, e.eval a = .ok u ∧ w.read m.name = .ok u := by
  have once := readable.once spine
  rcases stands with value | ⟨j, u, bs, outer, value⟩
  · exact constructReads value once inside
  · obtain ⟨fields, after, under, _, _⟩ := populateValue value
    obtain ⟨x, arg, got⟩ := constructReads under once inside
    have assigned : m.name ∈ (Expr.construct i t ms es).assignedNames :=
      List.mem_map_of_mem (List.of_mem_zip inside).1
    exact ⟨x, arg, (baseReads value (readable.once outer) under assigned).trans got⟩

theorem descendsReads (readable : item.Readable) (evaluates : item.eval a = .ok v)
    (down : Descends item path n) : ∃ w, path.valueFrom v = .ok w ∧ StandsFor a item n w := by
  induction down with
  | here => exact ⟨v, rfl, .inl evaluates⟩
  | @field path i t ms es m e outer inside _ ih =>
    obtain ⟨w, reached, stands⟩ := ih
    obtain ⟨u, value, read⟩ := stands.argument readable (outer.spine readable.unconverted).1 inside
    refine ⟨u, ?_, .inl value⟩
    rw [Path.valueSnoc, reached]
    exact read
  | @base path i t b bs outer ih =>
    obtain ⟨w, reached, stands⟩ := ih
    have spine := (outer.spine readable.unconverted).1
    have value := stands.exact readable.notBare
    exact ⟨w, reached, .inr ⟨i, t, bs, spine, value⟩⟩
  | @binding path i t b bs m e outer inside _ ih =>
    obtain ⟨w, reached, stands⟩ := ih
    have spine := (outer.spine readable.unconverted).1
    have value := stands.exact readable.notBare
    obtain ⟨u, assigned, read⟩ := populateReads value (readable.once spine).stores inside
    refine ⟨u, ?_, .inl assigned⟩
    rw [Path.valueSnoc, reached]
    exact read
  | back outer _ _ => exact (readable.unconverted (outer.spine readable.unconverted).1).elim

theorem sourcePathReads (readable : item.Readable) (evaluates : item.eval a = .ok v) {s : Source}
    (found : item.sourcePath s = .ok path) :
    ∃ w, path.valueFrom v = .ok w ∧ a.source s.id = some w := by
  obtain ⟨i, s', same, down⟩ := sourcePathDescends found
  obtain ⟨w, reached, stands⟩ := descendsReads readable evaluates down
  have value := stands.exact fun bare => by
    obtain ⟨_, _, _, _, other⟩ := readable.formed bare
    cases other
  unfold eval at value
  split at value
  · rename_i stored
    cases value
    exact ⟨w, reached, same ▸ stored⟩
  · cases value

theorem readableAgrees {e' : Expr} {b : Assignment} {input : Param} (readable : item.Readable)
    (free : ∀ i p, .parameter i p ∉ e.nodes) (apart : ∀ n ∈ e.nodes, ¬ item.BareBase n)
    (evaluates : item.eval a = .ok v) (bound : b.param input = some v)
    (read : yields ((Pass.readingBack item input).run e) e') :
    (e.eval a).mapError QueryError.kind = (e'.eval b).mapError QueryError.kind := by
  refine Pass.readingBackAgrees .sameKind read bound ?_ ?_
  · intro n path shown back
    rcases back with found | ⟨_, i, s, rfl, found⟩
    · obtain ⟨w, reached, stands⟩ := descendsReads readable evaluates (locateDescends found)
      rw [reached, stands.exact (apart n shown.node)]
      rfl
    · obtain ⟨w, reached, stored⟩ := sourcePathReads readable evaluates found
      rw [reached]
      simp only [eval, stored]
      rfl
  · intro i p shown
    exact absurd shown.node (free i p)

/-- Reverse resolution keeps the meaning: where an expression is rewritten over instances of a
readable item, the function has the value of the expression on the value of the item, or fails with
an error of the same kind. -/
theorem unresolveKeepsMeaning {item e : Expr} {a : Assignment} {v : Value} {l : Lambda} {s s' : Supply}
    (readable : item.Readable)
    (free : ∀ i p, .parameter i p ∉ e.nodes)
    (apart : ∀ n ∈ e.nodes, ¬ item.BareBase n)
    (evaluates : item.eval a = .ok v) (accepted : item.ty.accepts v = true)
    (made : (item.unresolve e).run s = (.ok l, s')) :
    ∃ f, l.close = .ok f ∧
      (f.call [v]).mapError QueryError.kind = (e.eval a).mapError QueryError.kind := by
  obtain ⟨input, e', rfl, ty, read⟩ := unresolveYields ⟨s, s', made⟩
  obtain ⟨f, closes, same⟩ := Lambda.closeOf (l := ⟨[input], e'⟩) (Pass.readingBackClosed read)
  refine ⟨f, closes, ?_⟩
  rw [Closed.callOne (congrArg Lambda.params same) (ty ▸ accepted), same]
  exact (readableAgrees readable free apart evaluates (if_pos rfl) read).symm

/- The reference and the constant are read back from the instance that stores them. -/
theorem unresolveKeepsMeaningOfSum :
    let s : Source := ⟨0, "x", .int⟩
    let item := Expr.construct 2 (.ofShape [("a", .int), ("b", .int)])
      (ObjectOf.ofShape [("a", .int), ("b", .int)]).members
      [.reference 0 s, .constant 1 .int (.integer 2)]
    let e := Expr.binary 3 .int .add (.reference 0 s) (.constant 1 .int (.integer 2))
    let a := Assignment.empty.bindSource s (.integer 40)
    ∃ l f, ((item.unresolve e).run ⟨4, 0, 1⟩).1 = .ok l ∧ l.close = .ok f ∧
      (f.call [.object [("a", .integer 40), ("b", .integer 2)]]).mapError QueryError.kind =
        (e.eval a).mapError QueryError.kind := by
  intro s item e a
  have nodes : item.nodes = [item, .reference 0 s, .constant 1 .int (.integer 2)] := rfl
  have readable : item.Readable := by
    refine ⟨fun ⟨i, t, bs, inside⟩ => ?_, fun spine => ?_, fun spine => ?_⟩
    · simp [nodes, item] at inside
    · simpa [nodes, item] using spine.node
    · have inside := spine.node
      rw [nodes] at inside
      simp only [List.mem_cons, List.not_mem_nil, or_false] at inside
      rcases inside with rfl | rfl | rfl <;> decide
  have succeeds : ((item.unresolve e).run ⟨4, 0, 1⟩).1.isOk = true := by decide +kernel
  obtain ⟨l, s', made⟩ := Build.okRun succeeds
  obtain ⟨f, closes, same⟩ := unresolveKeepsMeaning readable (a := a)
    (v := .object [("a", .integer 40), ("b", .integer 2)]) (by simp [e, Expr.nodes, s])
    (fun n _ ⟨i, t, bs, inside⟩ => by simp [nodes, item] at inside) rfl rfl made
  exact ⟨l, f, congrArg Prod.fst made, closes, same⟩

end Expr

end SymbolicQuery
