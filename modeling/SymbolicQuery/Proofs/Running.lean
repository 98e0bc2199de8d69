import SymbolicQuery.Proofs.Correspondence
import SymbolicQuery.Proofs.Recovery
import SymbolicQuery.Proofs.Refusal
import SymbolicQuery.Proofs.Retrieval
import SymbolicQuery.Proofs.Standing

/-! Running a query whose expressions are typed. The items between clauses are items of the origin; each
row is the value of what describes it on a value of its source; and every function is called on values
that its parameter accepts, so no check of a value against a type can fail. -/
namespace SymbolicQuery
open Results QueryError SymbolicQuery.Expr

theorem Sorter.runExpects {ι α : Type} {E : QueryError → Prop} {order : ι → ι → Except QueryError Ordering}
    {stop : QueryError} (each : ∀ i j, Expects (order i j) (fun _ => True) E) (stops : E stop) {t : Sorter ι α}
    {failed : Option QueryError} (before : ∀ e, failed = some e → E e) :
    Expects (t.run order stop failed) (fun _ => True) E := by
  induction t generalizing failed with
  | done a =>
    cases failed with
    | none => exact expectsOk trivial
    | some e => exact expectsError (before e rfl)
  | stopped => exact expectsError stops
  | compares x y next ih =>
    rw [run]
    cases known : order x y with
    | ok o => exact ih (o == .lt) before
    | error e =>
      refine ih false fun e' first => ?_
      cases failed with
      | none =>
        cases first
        exact (each x y).2 e known
      | some _ => exact before e' first

abbrev Assignment.at (s : Source) (x : Value) : Assignment := Assignment.empty.bindSource s x

theorem referenceEval {s : Source} {n : Expr} {x : Value} (upon : n.OfSource s) :
    n.eval (Assignment.at s x) = .ok x := by
  obtain ⟨i, rfl⟩ := upon
  simp only [eval, Assignment.bindSource, if_true]

theorem referenceEnds {s : Source} {E : QueryError → Prop} :
    Ends (liftM (Build.reference s) : Build Expr) (OfSource s) E :=
  ⟨fun _ made => referenceYields made, fun _ failed => (failsLift failed).elim⟩

theorem sourceKept {s : Source} {x : Value} (holds : s.itemType.Holds x) (n : Expr) (upon : n.OfSource s) :
    n.Kept (Assignment.at s x) := by
  intro u h
  rw [referenceEval upon] at h
  cases h
  obtain ⟨i, rfl⟩ := upon
  exact holds

theorem referenceReadable {s : Source} {item : Expr} (upon : item.OfSource s) : item.Readable := by
  obtain ⟨i, rfl⟩ := upon
  refine ⟨fun ⟨j, t, bs, inside⟩ => ?_, fun spine => ?_, fun spine => ?_⟩
  · cases List.mem_singleton.mp inside
  · cases List.mem_singleton.mp spine.node
  · cases List.mem_singleton.mp spine.node
    exact List.nodup_nil

namespace Query
variable {s : Source} {item e : Expr} {f : Closed} {v x : Value} {E : QueryError → Prop}

def FunctionFrom (item e : Expr) (f : Closed) : Prop :=
  ∃ l, yields (item.unresolve e) l ∧ l.close = .ok f

theorem closeExpects {l : Lambda} (made : yields (item.unresolve e) l) :
    Expects l.close (FunctionFrom item e) E := by
  obtain ⟨input, e', rfl, _, read⟩ := unresolveYields made
  obtain ⟨f, closes, _⟩ := Lambda.closeOf (l := ⟨[input], e'⟩) (Pass.readingBackClosed read)
  rw [closes]
  exact expectsOk ⟨_, made, closes⟩

theorem functionEnds (refused : ∀ err, fails (item.unresolve e) err → E err) :
    Ends (functionOf item e) (FunctionFrom item e) E :=
  endsBind (P := fun l => yields (item.unresolve e) l) ⟨fun _ made => made, refused⟩ fun _ made =>
    endsExcept (closeExpects made)

theorem FunctionFrom.reads (given : FunctionFrom item e f) : ∃ input e', f.lambda = ⟨[input], e'⟩ ∧
    input.ty = item.ty ∧ yields ((Pass.readingBack item input).run e) e' := by
  obtain ⟨l, made, closes⟩ := given
  obtain ⟨input, e', rfl, ty, read⟩ := unresolveYields made
  exact ⟨input, e', Lambda.closeIs closes, ty, read⟩

structure Fits (f : Closed) (p : Param) (result : Ty) (v : Value) : Prop where
  params : f.lambda.params = [p]
  argument : p.ty.Holds v
  body : f.lambda.body.Every (Kept (Assignment.empty.bind p v))
  result : f.lambda.body.ty = result

theorem FunctionFrom.fits (given : FunctionFrom item e f) (sound : item.Sound (OfSource s))
    (upon : e.Sound (OfSource s)) (holds : s.itemType.Holds x)
    (value : item.eval (Assignment.at s x) = .ok v) : ∃ p, Fits f p e.ty v := by
  obtain ⟨p, e', same, ty, read⟩ := given.reads
  obtain ⟨kept, types⟩ := readingBackKept (b := Assignment.empty.bind p v) sound (sourceKept holds) value ty
    (if_pos rfl) upon read
  refine ⟨p, by rw [same], ?_, by rw [same]; exact kept, by rw [same]; exact types⟩
  rw [ty]
  exact sound.evalHolds (sourceKept holds) value

theorem Fits.call {p : Param} {t : Ty} (fits : Fits f p t v) :
    Expects (f.call [v]) (fun u => t.Holds u) Other := by
  rw [Closed.callOne fits.params fits.argument.accepts]
  exact ⟨fun u value => fits.result ▸ fits.body.here u value, (evalPlain _).2⟩

theorem FunctionFrom.same {g : Closed} {u : Value} (given : FunctionFrom item e f) (other : FunctionFrom item e g)
    (upon : e.Sound (OfSource s)) (accepted : item.ty.accepts v = true) (called : f.call [v] = .ok u) :
    g.call [v] = .ok u := by
  obtain ⟨p, e', same, ty, read⟩ := given.reads
  obtain ⟨p', e'', same', ty', read'⟩ := other.reads
  rw [Closed.callOne (congrArg Lambda.params same) (ty ▸ accepted), same] at called
  rw [Closed.callOne (congrArg Lambda.params same') (ty' ▸ accepted), same']
  have agree : (e'.eval (Assignment.empty.bind p v)).mapError QueryError.kind =
      (e''.eval (Assignment.empty.bind p' v)).mapError QueryError.kind :=
    Correspondence.unboundItems.agree ⟨rfl, upon.free⟩ read read' (if_pos rfl) (if_pos rfl)
      fun _ none => absurd none (Nat.not_lt_zero _)
  rw [called] at agree
  cases right : e''.eval (Assignment.empty.bind p' v) with
  | error err =>
    rw [right] at agree
    cases agree
  | ok w =>
    rw [right] at agree
    cases agree
    rfl

theorem FunctionFrom.agrees {i : Nat} (given : FunctionFrom (.reference i s) e f) (upon : e.Sound (OfSource s))
    (accepted : s.itemType.accepts x = true) :
    (e.eval (Assignment.at s x)).mapError QueryError.kind = (f.call [x]).mapError QueryError.kind := by
  obtain ⟨p, e', same, ty, read⟩ := given.reads
  rw [Closed.callOne (congrArg Lambda.params same) (by rw [ty]; exact accepted), same]
  refine readableAgrees (referenceReadable ⟨i, rfl⟩) upon.free ?_ (referenceEval ⟨i, rfl⟩) (if_pos rfl) read
  intro n _ bare
  obtain ⟨j, t, bs, inside⟩ := bare
  cases List.mem_singleton.mp inside

theorem FunctionFrom.value {i : Nat} (given : FunctionFrom (.reference i s) e f) (upon : e.Sound (OfSource s))
    (accepted : s.itemType.accepts x = true) (u : Value) :
    f.call [x] = .ok u ↔ e.eval (Assignment.at s x) = .ok u := by
  have same := given.agrees upon accepted
  cases left : e.eval (Assignment.at s x) <;> cases right : f.call [x] <;>
    simp [left, right, Except.mapError] at same ⊢
  rw [same]

theorem describedAccepted {root t q w} (stands : Stands root t q item) (holds : q.source.itemType.Holds x)
    (value : q.selector.eval (Assignment.at q.source x) = .ok w) : q.selector.ty.accepts w = true :=
  (stands.selector.evalHolds (sourceKept holds) value).accepts

theorem selectExpects {items : List Value} (called : ∀ v ∈ items, Expects (f.call [v]) (fun _ => True) E) :
    Expects (select f items) (fun kept => ∀ v ∈ kept, v ∈ items) E := by
  induction items with
  | nil => exact expectsOk fun _ inside => inside
  | cons v rest ih =>
    obtain ⟨here, later⟩ := List.forall_mem_cons.mp called
    unfold select
    refine expectsBind here fun u _ => expectsBind (ih later) fun kept among => expectsOk ?_
    have grown : ∀ w ∈ kept, w ∈ v :: rest := fun w inside => List.mem_cons_of_mem _ (among w inside)
    split
    · exact List.forall_mem_cons.mpr ⟨List.mem_cons_self, grown⟩
    · exact grown

section Ordering
variable {fs : List KeyFunction} (unordered : ∀ cause, E (.failure cause))

section Comparing

include unordered

theorem compareExpects {as bs : List Value} : Expects (compareKeys fs as bs) (fun _ => True) E := by
  induction fs generalizing as bs with
  | nil => exact expectsOk trivial
  | cons f rest ih =>
    cases as with
    | nil => exact expectsOk trivial
    | cons a as =>
      cases bs with
      | nil => exact expectsOk trivial
      | cons b bs =>
        unfold compareKeys
        split
        · exact ih
        · exact expectsOk trivial
        · exact expectsError (unordered _)

end Comparing

variable (broken : E .brokenOrder)

include unordered broken

theorem sortExpects {items : List Value}
    (called : ∀ k ∈ fs, ∀ v ∈ items, Expects (k.function.call [v]) (fun _ => True) E) :
    Expects (sort fs items) (fun sorted => ∀ v ∈ sorted, v ∈ items) E := by
  have keyed : Expects (items.mapM (keysOf fs)) (List.Forall₂ (fun v k => k.2 = v) items) E := by
    refine expectsMap fun v inside => ?_
    exact expectsBind (expectsMap (R := fun _ _ => True) fun k member => called k member v inside) fun keys _ =>
      expectsOk rfl
  refine expectsBind keyed fun pairs known =>
    expectsBind (Sorter.runExpects (fun _ _ => compareExpects unordered) broken nofun) fun places _ =>
      expectsOk fun v inside => ?_
  obtain ⟨i, -, rfl⟩ := List.mem_map.mp inside
  obtain ⟨v, item, same⟩ := partFrom known (List.get_mem pairs i)
  exact same ▸ item

theorem runClauseExpects {i : Nat} {clause : Clause} {items : List Value}
    (refused : ∀ e ∈ clause.exprs, ∀ err, fails ((Expr.reference i s).unresolve e) err → E err)
    (called : ∀ e ∈ clause.exprs, ∀ f, FunctionFrom (.reference i s) e f → ∀ v ∈ items,
      Expects (f.call [v]) (fun _ => True) E) :
    Ends (runClause (.reference i s) clause items) (fun kept => ∀ v ∈ kept, v ∈ items) E := by
  cases clause with
  | filter e =>
    exact endsBind (functionEnds (refused e List.mem_cons_self)) fun f made =>
      endsExcept (selectExpects (called e List.mem_cons_self f made))
  | sort keys =>
    refine endsBind (endsMap (R := fun k f => FunctionFrom (.reference i s) k.key f.function)
      fun k inside => ?_) fun fs made => endsExcept (sortExpects unordered broken fun k inside v among => ?_)
    · exact endsBind (functionEnds (refused k.key (List.mem_map_of_mem inside))) fun f made => endsPure made
    · obtain ⟨key, member, made⟩ := partFrom made inside
      exact called key.key (List.mem_map_of_mem member) k.function made v among

end Ordering

theorem runClauseEnds {i : Nat} {clause : Clause} {items : List Value}
    (sound : ∀ e ∈ clause.exprs, e.Sound (OfSource s)) (holds : ∀ v ∈ items, s.itemType.Holds v) :
    Ends (runClause (.reference i s) clause items) (fun kept => ∀ v ∈ kept, v ∈ items) Other := by
  refine runClauseExpects (fun _ => not_false) not_false (fun e _ => unresolveUnchecked.2) fun e inside f made v among => ?_
  obtain ⟨p, fits⟩ := made.fits (ofSourceSound ⟨i, rfl⟩) (sound e inside) (holds v among)
    (referenceEval ⟨i, rfl⟩)
  exact fits.call.imp fun _ _ => trivial

end Query

end SymbolicQuery
