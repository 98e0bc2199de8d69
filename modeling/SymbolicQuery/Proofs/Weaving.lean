import SymbolicQuery.Proofs.Assembly
import SymbolicQuery.Proofs.Enumerating
import SymbolicQuery.Proofs.Refusal
import SymbolicQuery.Proofs.Retrieval

/-! Bodies that refer to no source, put over an item. Every reference in what results stands below a node
that the item stores on its spine, and a node of the spine that a search does not find stands behind a
step that is refused. So reading such an expression back fails in no other way. -/
namespace SymbolicQuery
open Results QueryError

namespace Expr
variable {item e n o arg body r : Expr} {p : Param} {path : Path}

inductive Woven (item : Expr) : Expr → Prop where
  | spine {n : Expr} (stored : Spine item n) : Woven item n
  | made {n : Expr} (other : n.asSource? = none) (parts : ∀ c ∈ n.parts, Woven item c) : Woven item n

theorem Spine.argumentFor {m : Member} (stored : Spine item o) (found : o.argumentFor? m = some arg) :
    Spine item arg := by
  rcases argumentPlace found with ⟨i, t, ms, es, rfl, inside⟩ | ⟨i, t, base, bs, rfl, inside⟩
  · exact .argument stored inside
  · exact .binding stored inside

theorem Woven.argument {m : Member} (woven : Woven item o) (found : o.argumentFor? m = some arg) :
    Woven item arg := by
  cases woven with
  | spine stored => exact .spine (stored.argumentFor found)
  | made _ parts => exact parts arg (argumentPart found)

theorem Woven.foldRead (other : n.asSource? = none) (parts : ∀ c ∈ n.parts, Woven item c) :
    Woven item n.foldRead := by
  rcases foldReadCases n with same | ⟨i, o, m, arg, reads, found, folded⟩
  · rw [same]
    exact .made other parts
  · have object : Woven item o := parts o (by rcases reads with rfl | rfl <;> exact List.mem_cons_self)
    rw [folded]
    exact object.argument found

theorem puttingWoven (put : item.Puts p body r) (free : body.Every fun n => n.asSource? = none) :
    Woven item r := by
  induction body using partsInduction generalizing r with
  | step body ih =>
    rcases puttingStep put with ⟨_, rfl⟩ | ⟨_, n, rebuilt, rfl⟩
    · exact .spine .item
    · refine Woven.foldRead (rebuilt.asSource.trans free.here) fun c' inside => ?_
      obtain ⟨c, part, put⟩ := partFrom rebuilt.parts inside
      exact ih c part put (free.part part)

theorem nodesWithin (inside : n ∈ e.nodes) : n.Every (· ∈ e.nodes) :=
  Every.node (fun _ member => member) inside

theorem Woven.refers (woven : Woven item e) {k : Expr} (inside : k ∈ e.nodes) (source : k.asSource?.isSome = true) :
    k ∈ item.nodes := by
  induction woven with
  | spine stored => exact nodesWithin stored.node k inside
  | made other _ ih =>
    rcases memNodes.mp inside with rfl | ⟨c, part, below⟩
    · rw [other] at source
      cases source
    · exact ih c part below

/-- What stands behind a step that is refused: the type which the way down comes to does not allow it. -/
inductive Barred (item : Expr) : Path → Step → Expr → Prop where
  | field {path : Path} {i t ms es m e} (outer : Descends item path (.construct i t ms es))
      (inside : (m, e) ∈ ms.zip es) (refused : (Step.read m).allowed (path.typeFrom item.ty) = false) :
      Barred item path (.read m) e
  | binding {path : Path} {i t b bs m e} (outer : Descends item path (.populate i t b bs))
      (inside : .assign m e ∈ bs) (refused : (Step.read m).allowed (path.typeFrom item.ty) = false) :
      Barred item path (.read m) e

def Hidden (item n : Expr) : Prop := ∃ path step behind, Barred item path step behind ∧ Spine behind n

theorem Spine.reached (stored : Spine item n) : (∃ path, Descends item path n) ∨ Hidden item n := by
  induction stored with
  | item => exact .inl ⟨[], .here⟩
  | @argument i t ms es m e outer inside ih =>
    rcases ih with ⟨path, down⟩ | ⟨path, step, behind, barred, below⟩
    · by_cases allowed : (Step.read m).allowed (path.typeFrom item.ty) = true
      · exact .inl ⟨_, .field down inside allowed⟩
      · exact .inr ⟨path, _, e, .field down inside (by simpa using allowed), .item⟩
    · exact .inr ⟨path, step, behind, barred, .argument below inside⟩
  | base _ ih =>
    rcases ih with ⟨path, down⟩ | ⟨path, step, behind, barred, below⟩
    · exact .inl ⟨path, .base down⟩
    · exact .inr ⟨path, step, behind, barred, .base below⟩
  | @binding i t b bs m e outer inside ih =>
    rcases ih with ⟨path, down⟩ | ⟨path, step, behind, barred, below⟩
    · by_cases allowed : (Step.read m).allowed (path.typeFrom item.ty) = true
      · exact .inl ⟨_, .binding down inside allowed⟩
      · exact .inr ⟨path, _, e, .binding down inside (by simpa using allowed), .item⟩
    · exact .inr ⟨path, step, behind, barred, .binding below inside⟩

theorem Spine.hidden (stored : Spine item n) (absent : n.locate item = none) : Hidden item n := by
  rcases stored.reached with ⟨path, down⟩ | hidden
  · obtain ⟨path, found⟩ := descendsLocate down
    cases absent.symm.trans found
  · exact hidden

def Stopped (s : Search) : Prop := s.found.isSome = true ∨ s.refused.isSome = true

theorem stoppedRefused {s : Search} {err : QueryError} : Stopped (s.refuse err) := by
  refine .inr ?_
  unfold Search.refuse
  cases s.refused <;> rfl

theorem stoppedSettles : Search.Settles Stopped :=
  ⟨⟨fun _ => .inl rfl, fun _ _ => stoppedRefused⟩, fun _ _ => .inl rfl⟩

theorem Barred.stopped {step : Step} (barred : Barred item path step n) (searched : Expr) :
    Stopped (search searched item.ty [] .start item) := by
  cases barred with
  | field down inside refused =>
    refine searchMeets stoppedSettles down (fun s => ?_) .start
    unfold search
    split
    · exact stoppedSettles.found _ _
    · refine meetsFields stoppedSettles inside fun s => ?_
      rw [if_neg (by simp [refused])]
      exact stoppedRefused
  | binding down inside refused =>
    refine searchMeets stoppedSettles down (fun s => ?_) .start
    unfold search
    split
    · exact stoppedSettles.found _ _
    · refine meetsBindings stoppedSettles inside fun s => ?_
      rw [if_neg (by simp [refused])]
      exact stoppedRefused

theorem Woven.exposed (woven : Woven item e) (shown : item.Exposed e n) :
    Woven item n ∨ ∃ k ∈ e.nodes, Spine item k ∧ k.locate item = none ∧ n ∈ k.nodes := by
  induction shown with
  | root => exact .inl woven
  | part above absent inside ih =>
    rcases ih with woven | ⟨k, shared, stored, none, below⟩
    · cases woven with
      | spine stored => exact .inr ⟨_, above.node, stored, absent, memNodes.mpr (.inr ⟨_, inside, selfNode _⟩)⟩
      | made _ parts => exact .inl (parts _ inside)
    · exact .inr ⟨k, shared, stored, none, nodesBelow below inside⟩

/-- Why an expression cannot be read back from an item: a node that the two share refers to a source, and the item has it
behind a step that is refused. The error is that of the first step which is refused to the search for the last reference. -/
inductive Withholds (item e : Expr) : QueryError → Prop where
  | behind {node last : Expr} {i : Nat} {s : Source} {path : Path} {step : Step}
      (shared : node ∈ e.nodes) (refers : .reference i s ∈ node.nodes)
      (stored : Spine item node) (absent : node.locate item = none) (hidden : Hidden item node)
      (tried : (item.referencesTo s).getLast? = some last)
      (first : (stops last item).head? = some (path, step))
      (down : ∃ n, Descends item path n) (refused : step.allowed (path.typeFrom item.ty) = false) :
      Withholds item e (step.refusal (path.typeFrom item.ty))

theorem Withholds.refuses {err : QueryError} (withholds : Withholds item e err) : Refuses err := by
  cases withholds with
  | behind _ _ _ _ _ _ _ _ refused => exact ⟨_, _, refused, rfl⟩

theorem Hidden.failure {searched : Expr} {err : QueryError} (hidden : Hidden item n)
    (failed : searched.pathTo item = .error err) :
    ∃ path step, (stops searched item).head? = some (path, step) ∧ err = step.refusal (path.typeFrom item.ty) := by
  obtain ⟨_, _, _, barred, _⟩ := hidden
  rw [pathToEnds] at failed
  cases last : (places searched item).getLast? with
  | some place =>
    rw [last] at failed
    cases failed
  | none =>
    rw [last] at failed
    cases first : (stops searched item).head? with
    | some stop =>
      rw [first] at failed
      cases failed
      exact ⟨stop.1, stop.2, rfl, rfl⟩
    | none =>
      have notes : Notes searched item.ty item := searchNotes item
      have noted : search searched item.ty [] .start item = _ := @notes [] .start item
      have stopped := barred.stopped searched
      rw [Stopped, noted, notedFound, notedRefused] at stopped
      unfold places at last
      unfold stops at first
      rw [last, first] at stopped
      rcases stopped with found | refused
      · cases found
      · cases refused

theorem Woven.withholds {err : QueryError} (woven : Woven item e) (failed : fails (item.unresolve e) err) :
    Withholds item e err := by
  obtain ⟨i, s, shown, absent, failed⟩ := unresolveFails failed
  -- the reference stands below a node of the spine that no search comes to
  obtain ⟨k, shared, stored, none, below⟩ :
      ∃ k ∈ e.nodes, Spine item k ∧ k.locate item = none ∧ .reference i s ∈ k.nodes := by
    rcases woven.exposed shown with woven | above
    · cases woven with
      | spine stored => exact ⟨_, shown.node, stored, absent, selfNode _⟩
      | made other _ => cases other
    · exact above
  have mentions : item.Mentions s (.reference i s) := ⟨nodesWithin stored.node _ below, i, s, rfl, rfl⟩
  rcases sourcePathCases item s with ⟨_, _, _, _, found⟩ | ⟨n, err', ⟨last, _⟩, missed, same⟩ | ⟨without, _⟩
  · cases found.symm.trans failed
  · cases same.symm.trans failed
    have hidden := stored.hidden none
    obtain ⟨path, step, first, rfl⟩ := hidden.failure missed
    obtain ⟨down, refused⟩ := stopsRefuse (List.mem_of_head? first)
    exact .behind shared below stored none hidden last first down refused
  · exact absurd (without ▸ mentionsIff.mpr mentions) List.not_mem_nil

end Expr

end SymbolicQuery
