import SymbolicQuery.Proofs.Agreement
import SymbolicQuery.Proofs.Descent
import SymbolicQuery.Proofs.Passing
import SymbolicQuery.Resolution

/-! Expressions read back from an instance of an item. Every node that is read back is replaced by a
path into the item, so if the paths agree with the nodes that they stand for, the function that results
agrees with the expression; and no query source is left in it. -/
namespace SymbolicQuery
open Results

/-- The path by which a node is read back from an item: to where the item stores the node, or else,
for a reference, to a reference to the same source. -/
def Expr.BackBy (item n : Expr) (path : Path) : Prop :=
  n.locate item = some path ∨
    n.locate item = none ∧ ∃ i s, n = .reference i s ∧ item.sourcePath s = .ok path

def Expr.wayBack? (item n : Expr) : Option (Except QueryError Path) :=
  match n.locate item with
  | some path => some (.ok path)
  | none => n.asSource?.map item.sourcePath

def Expr.Exposed (item : Expr) : Expr → Expr → Prop := Expr.Shown fun n => n.locate item = none

namespace Pass
variable {item e e' : Expr} {input : Param} {err : QueryError}

theorem readingBackWay : (readingBack item input).enter e = (match item.wayBack? e with
    | some way => do
      let path ← way
      return some (← (do path.follow (← Build.parameter input) : Fresh Expr))
    | none => pure none) := by
  unfold readingBack Expr.wayBack?
  dsimp only
  cases e.locate item with
  | some path => rfl
  | none => cases e <;> rfl

theorem backWay {path : Path} : item.BackBy e path ↔ item.wayBack? e = some (.ok path) := by
  unfold Expr.BackBy Expr.wayBack?
  cases e.locate item with
  | some path => simp
  | none => cases e <;> simp [Expr.asSource?]

theorem noWayBack (stays : item.wayBack? e = none) : e.asSource? = none := by
  unfold Expr.wayBack? at stays
  split at stays
  · cases stays
  · exact Option.map_eq_none_iff.mp stays

theorem noWay (absent : e.locate item = none) (other : ∀ i s, e ≠ .reference i s) : item.wayBack? e = none := by
  unfold Expr.wayBack?
  rw [absent]
  cases e with
  | reference i s => exact absurd rfl (other i s)
  | _ => rfl

theorem followsInput {path : Path} (h : yields (m := Build) (do
    let start ← Build.parameter input
    path.follow start) e') : ∃ i, yields (path.follow (.parameter i input)) e' := by
  obtain ⟨start, made, followed⟩ := ofBind h
  obtain ⟨i, _, last⟩ := ofBind (ofLiftT made)
  cases ofPure last
  exact ⟨i, ofLiftT followed⟩

theorem readingBackEnters {r : Option Expr} (h : yields ((readingBack item input).enter e) r) :
    (∃ path i e', r = some e' ∧ item.BackBy e path ∧ yields (path.follow (.parameter i input)) e') ∨
      r = none ∧ e.locate item = none ∧ ∀ i s, e ≠ .reference i s := by
  unfold readingBack at h
  dsimp only at h
  split at h
  · rename_i path found
    obtain ⟨e', followed, last⟩ := ofBind h
    cases ofPure last
    obtain ⟨i, followed⟩ := followsInput followed
    exact .inl ⟨path, i, e', rfl, .inl found, followed⟩
  · rename_i absent
    cases e with
    | reference id s =>
      obtain ⟨path, found, rest⟩ := ofBind h
      obtain ⟨e', followed, last⟩ := ofBind rest
      cases ofPure last
      obtain ⟨i, followed⟩ := followsInput followed
      exact .inl ⟨path, i, e', rfl, .inr ⟨absent, id, s, rfl, ofExcept found⟩, followed⟩
    | _ =>
      cases ofPure h
      exact .inr ⟨rfl, absent, fun _ _ same => by cases same⟩

theorem readingBackRefuses (h : fails ((readingBack item input).enter e) err) :
    e.locate item = none ∧ ∃ i s, e = .reference i s ∧ item.sourcePath s = .error err := by
  have follows : ∀ {path : Path}, ¬ fails (m := Fresh) (do
      let start ← Build.parameter input
      path.follow start : Build Expr) err := by
    intro path h
    rcases failsBind h with h | ⟨_, _, h⟩ <;> exact failsLift h
  unfold readingBack at h
  dsimp only at h
  split at h
  · rcases failsBind h with h | ⟨_, _, h⟩
    · exact (follows h).elim
    · exact (failsPure h).elim
  · rename_i absent
    cases e with
    | reference id s =>
      refine ⟨absent, id, s, rfl, ?_⟩
      rcases failsBind h with h | ⟨_, _, h⟩
      · exact failsExcept h
      · rcases failsBind h with h | ⟨_, _, h⟩
        · exact (follows h).elim
        · exact (failsPure h).elim
    | _ => exact (failsPure h).elim

theorem readingBackStep (h : yields ((readingBack item input).run e) e') :
    (∃ path i, item.BackBy e path ∧ yields (path.follow (.parameter i input)) e') ∨
      e.locate item = none ∧ (∀ i s, e ≠ .reference i s) ∧
        Expr.Rebuilt (fun c c' => yields ((readingBack item input).run c) c') e e' := by
  rcases runStep h with entered | ⟨opened, n, rebuilt, left⟩
  · obtain ⟨path, i, _, same, back, followed⟩ | ⟨none, _⟩ := readingBackEnters entered
    · cases same
      exact .inl ⟨path, i, back, followed⟩
    · cases none
  · obtain ⟨_, _, _, some, _⟩ | ⟨_, absent, other⟩ := readingBackEnters opened
    · cases some
    · cases ofPure left
      exact .inr ⟨absent, other, rebuilt⟩

theorem readingBackOnEntry : (readingBack item input).FailsOnEntry := ⟨fun _ h => failsLift h, fun _ _ _ h => failsPure h⟩

theorem readingBackFails (h : fails ((readingBack item input).run e) err) :
    ∃ i s, item.Exposed e (.reference i s) ∧ (Expr.reference i s).locate item = none ∧
      item.sourcePath s = .error err := by
  obtain ⟨n, shown, refused⟩ := runFails readingBackOnEntry h
  obtain ⟨absent, i, s, rfl, error⟩ := readingBackRefuses refused
  refine ⟨i, s, ?_, absent, error⟩
  refine shown.imp fun k opened => ?_
  obtain ⟨_, _, _, some, _⟩ | ⟨_, absent, _⟩ := readingBackEnters opened
  · cases some
  · exact absent

theorem readingBackAgrees (A : Agreement) {a b : Assignment} {v : Value}
    (h : yields ((readingBack item input).run e) e') (bound : b.param input = some v)
    (back : ∀ n path, item.Exposed e n → item.BackBy n path → A.rel (n.eval a) (path.valueFrom v))
    (free : ∀ i p, item.Exposed e (.parameter i p) → a.param p = b.param p) :
    A.rel (e.eval a) (e'.eval b) := by
  induction e using Expr.partsInduction generalizing e' with
  | step e ih =>
    rcases readingBackStep h with ⟨path, i, by_, followed⟩ | ⟨absent, other, rebuilt⟩
    · rw [Path.followEval followed]
      simp only [Expr.eval, bound]
      exact back e path .root by_
    · refine Expr.evalRebuilt (rebuilt.mono fun c inside c' h => ?_)
        (fun i p same => free i p (same ▸ .root)) (fun i s same => absurd same (other i s))
      exact ih c inside h (fun n path shown => back n path (shown.under absent inside))
        (fun i p shown => free i p (shown.under absent inside))

theorem readingBackClosed (h : yields ((readingBack item input).run e) e') : e'.references = [] := by
  suffices none : ∀ n ∈ e'.nodes, ∀ i s, n ≠ .reference i s by
    refine List.filter_eq_nil_iff.mpr fun n inside some => ?_
    cases n with
    | reference i s => exact none _ inside i s rfl
    | _ => cases some
  induction e using Expr.partsInduction generalizing e' with
  | step e ih =>
    rcases readingBackStep h with ⟨path, i, _, followed⟩ | ⟨_, other, rebuilt⟩
    · exact Path.followClosed followed
    · intro n inside
      rcases Expr.memNodes.mp inside with rfl | ⟨c', member, inside⟩
      · intro i s same
        subst same
        cases rebuilt
        exact other _ _ rfl
      · obtain ⟨c, part, made⟩ := Expr.partFrom rebuilt.parts member
        exact ih c part made n inside

end Pass

namespace Expr
variable {item e : Expr} {path : Path}

theorem unresolveYields {l : Lambda} (h : yields (item.unresolve e) l) :
    ∃ input e', l = ⟨[input], e'⟩ ∧ input.ty = item.ty ∧
      yields ((Pass.readingBack item input).run e) e' := by
  obtain ⟨input, made, h⟩ := ofBind h
  obtain ⟨e', read, h⟩ := ofBind h
  cases ofPure h
  obtain ⟨i, _, last⟩ := ofBind (ofLiftT made)
  cases ofPure last
  exact ⟨_, e', rfl, rfl, read⟩

theorem unresolveFails {err : QueryError} (h : fails (item.unresolve e) err) :
    ∃ i s, item.Exposed e (.reference i s) ∧ (Expr.reference i s).locate item = none ∧
      item.sourcePath s = .error err := by
  rcases failsBind h with h | ⟨input, _, h⟩
  · exact (failsLift h).elim
  · rcases failsBind h with h | ⟨_, _, h⟩
    · exact Pass.readingBackFails h
    · exact (failsPure h).elim

def referencesTo (item : Expr) (s : Source) : List Expr :=
  item.references.filter fun e => (e.asSource?.map Source.id) == some s.id

def Mentions (item : Expr) (s : Source) (n : Expr) : Prop :=
  n ∈ item.nodes ∧ ∃ i s', s'.id = s.id ∧ n = .reference i s'

theorem mentionsIff {s : Source} {n : Expr} : n ∈ item.referencesTo s ↔ item.Mentions s n := by
  rw [referencesTo, List.mem_filter, references, List.mem_filter]
  constructor
  · rintro ⟨⟨inside, _⟩, same⟩
    refine ⟨inside, ?_⟩
    cases n with
    | reference i s' => exact ⟨i, s', by simpa [asSource?] using same, rfl⟩
    | _ => cases same
  · rintro ⟨inside, i, s', same, rfl⟩
    exact ⟨⟨inside, rfl⟩, by simp [asSource?, same]⟩

theorem sourcePathCases (item : Expr) (s : Source) :
    (∃ n path, item.Mentions s n ∧ n.pathTo item = .ok path ∧ item.sourcePath s = .ok path) ∨
      (∃ n err, ((item.referencesTo s).getLast? = some n ∧ ∀ k ∈ item.referencesTo s, ∃ err, k.pathTo item = .error err) ∧
        n.pathTo item = .error err ∧ item.sourcePath s = .error err) ∨
      item.referencesTo s = [] ∧ item.sourcePath s = .error (.unresolved s.itemName (.notInItem item.text)) := by
  -- The path to a source is that to a reference which the item has. Where none has a path the
  -- error is that of the last, unless the item has none.
  unfold sourcePath
  dsimp only
  rw [← referencesTo]
  have missed (none : ((item.referencesTo s).reverse.map fun e => e.pathTo item).findSome? Except.toOption = none) :
      ∀ k ∈ item.referencesTo s, ∃ err, k.pathTo item = .error err := by
    intro k inside
    have absent := List.findSome?_eq_none_iff.mp none _ (List.mem_map_of_mem (List.mem_reverse.mpr inside))
    cases way : k.pathTo item with
    | error err => exact ⟨err, rfl⟩
    | ok path =>
      rw [way] at absent
      cases absent
  split
  · rename_i found
    obtain ⟨r, inside, taken⟩ := List.exists_of_findSome?_eq_some found
    obtain ⟨n, candidate, rfl⟩ := List.mem_map.mp inside
    refine .inl ⟨n, _, mentionsIff.mp (List.mem_reverse.mp candidate), ?_, rfl⟩
    cases way : n.pathTo item with
    | error e => rw [way] at taken; cases taken
    | ok p => rw [way] at taken; cases taken; rfl
  · rename_i error rest none paths
    obtain ⟨n, others, listed, failed, _⟩ := List.map_eq_cons_iff.mp paths
    have last : (item.referencesTo s).getLast? = some n := by
      rw [← List.head?_reverse, listed]
      rfl
    exact .inr (.inl ⟨n, error, ⟨last, missed none⟩, failed, rfl⟩)
  · rename_i none other
    refine .inr (.inr ⟨?_, rfl⟩)
    cases listed : (item.referencesTo s).reverse with
    | nil => exact List.reverse_eq_nil_iff.mp listed
    | cons n others =>
      obtain ⟨err, failed⟩ := missed none n (List.mem_reverse.mp (listed ▸ List.mem_cons_self))
      rw [listed, List.map_cons, failed] at other
      exact absurd rfl (other err _)

theorem sourcePathDescends {s : Source} (h : item.sourcePath s = .ok path) :
    ∃ i s', s'.id = s.id ∧ Descends item path (.reference i s') := by
  rcases sourcePathCases item s with ⟨n, _, ⟨_, i, s', same, rfl⟩, located, found⟩ |
      ⟨_, _, _, _, failed⟩ | ⟨_, failed⟩
  · cases found.symm.trans h
    exact ⟨i, s', same, pathToDescends located⟩
  · cases failed.symm.trans h
  · cases failed.symm.trans h

theorem referencePaths {i : Nat} {s t : Source} : (Expr.reference i s).sourcePath t =
    if s.id = t.id then .ok [] else .error (.unresolved t.itemName (.notInItem (Expr.reference i s).text)) := by
  by_cases same : s.id = t.id <;>
    simp [sourcePath, references, nodes, asSource?, pathTo, search, Search.find, Search.start, Except.toOption, same]

theorem referencePath {i : Nat} {s : Source} : (Expr.reference i s).sourcePath s = .ok [] :=
  referencePaths.trans (if_pos rfl)

end Expr

namespace Lambda

theorem closeIs {l : Lambda} {f : Closed} (closes : l.close = .ok f) : f.lambda = l := by
  unfold close at closes
  split at closes
  · cases closes
    rfl
  · cases closes

theorem closeOf {l : Lambda} (closed : l.body.references = []) : ∃ f, l.close = .ok f ∧ f.lambda = l := by
  have succeeds : ∃ f, l.close = .ok f := by
    unfold close
    split
    · exact ⟨_, rfl⟩
    · rename_i some
      rw [closed] at some
      cases some
  obtain ⟨f, closes⟩ := succeeds
  exact ⟨f, closes, closeIs closes⟩

end Lambda

theorem Closed.callOne {f : Closed} {p : Param} {v : Value} (params : f.lambda.params = [p])
    (accepted : p.ty.accepts v = true) :
    f.call [v] = f.lambda.body.eval (Assignment.empty.bind p v) := by
  unfold call
  simp only [params, List.length_singleton, ne_eq, not_true_eq_false, ↓reduceIte,
    Lambda.bindArguments, accepted]
  rfl

end SymbolicQuery
