import SymbolicQuery.Proofs.Lockstep
import SymbolicQuery.Proofs.ReadingBack
import SymbolicQuery.Query.Execute

/-! Expressions over some sources that correspond to expressions over others. Nodes correspond one to one, so
a search for a node goes the way of the search for the other, and both are read back along the same paths:
the functions that they become give the same results. -/
namespace SymbolicQuery
open Results SymbolicQuery.Expr

theorem Path.followBeyond {bound : Nat} {path : Path} {start : Expr} :
    Fresh.Beyond bound (fun _ => True) (path.follow start) := by
  unfold Path.follow
  induction path generalizing start with
  | nil => exact Fresh.beyondPure trivial
  | cons step rest ih =>
    rw [List.foldlM_cons]
    refine Fresh.Beyond.bind (P := fun _ => True) ?_ fun _ _ => ih
    cases step with
    | read | convertBack => exact Fresh.beyondNode.bind fun _ _ => Fresh.beyondPure trivial

theorem Path.followInput {bound : Nat} {path : Path} {input : Param} :
    Fresh.Beyond bound (fun _ => True) (do path.follow (← Build.parameter input)) :=
  Fresh.Beyond.bind (P := fun _ => True) (Fresh.beyondNode.bind fun _ _ => Fresh.beyondPure trivial)
    fun _ _ => Path.followBeyond

theorem Pass.readingBackSettles {bound : Nat} (item : Expr) (input : Param) (e : Expr) (unchanged : Bool)
    (rebuilt : Nat → Expr) : ∃ x : Fresh Expr, x.Beyond bound (fun _ => True) ∧
      (readingBack item input).settle e unchanged rebuilt = liftM x := by
  cases unchanged with
  | true => exact ⟨pure e, Fresh.beyondPure trivial, rfl⟩
  | false => exact ⟨freshNode >>= fun i => pure (rebuilt i),
      Fresh.beyondNode.bind fun _ _ => Fresh.beyondPure trivial, rfl⟩

namespace Expr
variable {n n' : Expr} {ty : Ty} {path : Path} {st : Search} {es es' : List Expr} {bs bs' : List Binding}

def SearchesAlike (n n' c c' : Expr) : Prop := ∀ ty path st, search n ty path st c = search n' ty path st c'

theorem searchFieldsAlike (each : List.Forall₂ (SearchesAlike n n') es es') {ms : List Member} :
    searchFields n ty path st ms es = searchFields n' ty path st ms es' := by
  induction each generalizing ms st with
  | nil => cases ms <;> rfl
  | cons head _ ih =>
    cases ms with
    | nil => rfl
    | cons m ms =>
      unfold searchFields
      dsimp only
      rw [head]
      exact ih

theorem searchBindingsAlike (each : List.Forall₂ (BindingOf.Related (SearchesAlike n n')) bs bs') :
    searchBindings n ty path st bs = searchBindings n' ty path st bs' := by
  induction each generalizing st with
  | nil => rfl
  | cons head _ ih =>
    cases head with
    | assign value =>
      unfold searchBindings
      dsimp only
      rw [value]
      exact ih
    | collect =>
      unfold searchBindings
      exact ih

theorem firstAlike {paths paths' : List (Except QueryError Path)} (along : List.Forall₂ (Outcomes Eq) paths paths') :
    paths.findSome? Except.toOption = paths'.findSome? Except.toOption := by
  induction along with
  | nil => rfl
  | cons head _ ih =>
    cases head with
    | ok same => rw [same]; rfl
    | error => exact ih

theorem referenceWays {i : Nat} {s : Source} : (Expr.reference i s).wayBack? n =
    n.asSource?.map fun t =>
      if s.id = t.id then .ok [] else .error (.unresolved t.itemName (.notInItem (Expr.reference i s).text)) := by
  have located : n.locate (.reference i s) = if .reference i s = n then some [] else none := by
    unfold locate search
    split <;> rfl
  unfold wayBack?
  rw [located]
  by_cases here : .reference i s = n
  · subst here
    simp [asSource?]
  · rw [if_neg here]
    cases n.asSource? with
    | none => rfl
    | some t => exact congrArg some referencePaths

end Expr

structure Correspondence (bound : Nat) where
  rel : Expr → Expr → Prop
  sources : Source → Source → Prop
  shape {e e' : Expr} : rel e e' →
    (∃ i j s s', e = .reference i s ∧ e' = .reference j s' ∧ sources s s') ∨ e.asSource? = none ∧ Rebuilt rel e e'
  apart {a a' b b' : Expr} : rel a a' → rel b b' → (a = b ↔ a' = b')
  sourcesApart {s s' t t' : Source} : sources s s' → sources t t' → (s.id = t.id ↔ s'.id = t'.id)
  typed {s s' : Source} : sources s s' → s'.itemType = s.itemType
  params {i : Nat} {p : Param} {e' : Expr} : rel (.parameter i p) e' → p.id < bound

namespace Correspondence
variable {bound : Nat} (C : Correspondence bound) {e e' n n' item item' : Expr} {s s' t t' : Source}
include C

theorem ty (related : C.rel e e') : e'.ty = e.ty := by
  induction e using partsInduction generalizing e' with
  | step e ih =>
    rcases C.shape related with ⟨i, j, s, s', rfl, rfl, sources⟩ | ⟨_, rebuilt⟩
    · exact C.typed sources
    · exact (rebuilt.mono ih).ty

theorem parts (related : C.rel e e') : List.Forall₂ C.rel e.parts e'.parts := by
  rcases C.shape related with ⟨i, j, s, s', rfl, rfl, _⟩ | ⟨_, rebuilt⟩
  · exact .nil
  · exact rebuilt.parts

theorem nodes (related : C.rel e e') : List.Forall₂ C.rel e.nodes e'.nodes := by
  induction e using partsInduction generalizing e' with
  | step e ih =>
    rw [nodesParts, nodesParts e']
    exact .cons related (List.rel_flatMap (forallMono (C.parts related) ih) fun _ _ below => below)

theorem source (related : C.rel n n') : n.asSource? = none ∧ n'.asSource? = none ∨
    ∃ t t', n.asSource? = some t ∧ n'.asSource? = some t' ∧ C.sources t t' := by
  rcases C.shape related with ⟨_, _, t, t', rfl, rfl, sources⟩ | ⟨other, rebuilt⟩
  · exact .inr ⟨t, t', rfl, rfl, sources⟩
  · exact .inl ⟨other, rebuilt.asSource.trans other⟩

theorem search (searched : C.rel n n') (items : C.rel item item') : SearchesAlike n n' item item' := by
  intro ty path st
  induction item using partsInduction generalizing item' ty path st with
  | step item ih =>
    unfold Expr.search
    by_cases same : item = n
    · rw [if_pos same, if_pos ((C.apart items searched).mp same)]
    · rw [if_neg same, if_neg fun same' => same ((C.apart items searched).mpr same')]
      rcases C.shape items with ⟨i, j, s, s', rfl, rfl, _⟩ | ⟨_, rebuilt⟩
      · rfl
      · have below : Rebuilt (fun c c' => C.rel c c' ∧ SearchesAlike n n' c c') item item' :=
          rebuilt.mono fun c inside c' related => ⟨related, ih c inside related⟩
        cases below with
        | construct args => exact searchFieldsAlike (forallMono args fun _ _ _ both => both.2)
        | populate base bindings =>
          dsimp only
          rw [base.2]
          exact searchBindingsAlike (bindingMono bindings fun _ _ _ both => both.2)
        | convert operand =>
          dsimp only
          rw [C.ty operand.1, operand.2]
        | _ => rfl

theorem locate (searched : C.rel n n') (items : C.rel item item') : n.locate item = n'.locate item' := by
  unfold Expr.locate
  rw [C.ty items, C.search searched items]

theorem pathTo (searched : C.rel n n') (items : C.rel item item') :
    Outcomes Eq (n.pathTo item) (n'.pathTo item') := by
  unfold Expr.pathTo
  rw [C.ty items, C.search searched items]
  dsimp only
  split
  · exact .ok rfl
  · exact .error rfl
  · exact .error rfl

theorem sourcePath (sources : C.sources s s') (items : C.rel item item') :
    Outcomes Eq (item.sourcePath s) (item'.sourcePath s') := by
  have known : List.Forall₂ C.rel item.references item'.references := by
    refine List.rel_filter (fun n n' related => ?_) (C.nodes items)
    rcases C.source related with ⟨none, none'⟩ | ⟨t, t', some, some', _⟩
    · simp [none, none']
    · simp [some, some']
  have candidates : List.Forall₂ C.rel
      (item.references.filter fun n => (n.asSource?.map Source.id) == some s.id)
      (item'.references.filter fun n => (n.asSource?.map Source.id) == some s'.id) := by
    refine List.rel_filter (fun n n' related => ?_) known
    rcases C.source related with ⟨none, none'⟩ | ⟨t, t', some, some', sources'⟩
    · simp [none, none']
    · simpa [some, some'] using C.sourcesApart sources' sources
  have paths : List.Forall₂ (Outcomes Eq) _ _ :=
    List.rel_map (fun _ _ searched => C.pathTo searched items) (List.rel_reverse candidates)
  unfold Expr.sourcePath
  dsimp only
  rw [firstAlike paths]
  generalize List.map (fun n : Expr => n.pathTo item) _ = ps, List.map (fun n : Expr => n.pathTo item') _ = ps'
    at paths ⊢
  cases ps'.findSome? Except.toOption with
  | some path => exact .ok rfl
  | none =>
    cases paths with
    | nil => exact .error rfl
    | cons head _ => cases head with
      | ok => exact .error rfl
      | error same => exact .error same

structure Items (item item' : Expr) : Prop where
  ty : item'.ty = item.ty
  back {n n' : Expr} : C.rel n n' → Option.Rel (Outcomes Eq) (item.wayBack? n) (item'.wayBack? n')

theorem related (items : C.rel item item') : C.Items item item' := by
  refine ⟨C.ty items, fun {n n'} searched => ?_⟩
  unfold wayBack?
  rw [C.locate searched items]
  cases n'.locate item' with
  | some path => exact .some (.ok rfl)
  | none =>
    rcases C.source searched with ⟨none, none'⟩ | ⟨t, t', some, some', sources⟩
    · rw [none, none']
      exact .none
    · rw [some, some']
      exact .some (C.sourcePath sources items)

theorem references {i j : Nat} (sources : C.sources s s') : C.Items (.reference i s) (.reference j s') := by
  refine ⟨C.typed sources, fun {n n'} searched => ?_⟩
  rw [referenceWays, referenceWays]
  rcases C.source searched with ⟨none, none'⟩ | ⟨t, t', some, some', sources'⟩
  · rw [none, none']
    exact .none
  · rw [some, some']
    refine .some ?_
    dsimp only
    by_cases same : s.id = t.id
    · rw [if_pos same, if_pos ((C.sourcesApart sources sources').mp same)]
      exact .ok rfl
    · rw [if_neg same, if_neg fun same' => same ((C.sourcesApart sources sources').mpr same')]
      exact .error rfl

variable {C} {input input' : Param}

theorem Items.reads (items : C.Items item item') (related : C.rel e e') :
    (Lockstep.building bound).rel Lockstep.Both ((Pass.readingBack item input).run e)
      ((Pass.readingBack item' input').run e') := by
  refine Lockstep.run _ (R := C.rel) (fun n n' related => ?_) (fun _ _ _ _ => Lockstep.pure _ trivial)
    (fun b u r b' u' r' => ?_) related
  · -- either both nodes have a way back from their items or none has
    rw [Pass.readingBackWay, Pass.readingBackWay]
    have back := items.back related
    cases way : item.wayBack? n with
    | none =>
      rw [way] at back
      cases way' : item'.wayBack? n' with
      | some => rw [way'] at back; cases back
      | none =>
        refine Lockstep.pure _ (.inr ⟨rfl, rfl, ?_⟩)
        rcases C.shape related with ⟨i, j, s, s', rfl, rfl, _⟩ | ⟨_, rebuilt⟩
        · cases Pass.noWayBack way
        · exact rebuilt
    | some r =>
      rw [way] at back
      cases way' : item'.wayBack? n' with
      | none => rw [way'] at back; cases back
      | some r' =>
        rw [way'] at back
        cases back with
        | some outcomes =>
          exact Lockstep.bind _ (Build.inStepExcept outcomes) fun path path' _ =>
            Lockstep.bind _ (Path.followInput.inStep Path.followInput) fun _ _ _ => Lockstep.pure _ (.inl ⟨rfl, rfl⟩)
  · obtain ⟨x, beyond, same⟩ := Pass.readingBackSettles item input b u r
    obtain ⟨x', beyond', same'⟩ := Pass.readingBackSettles item' input' b' u' r'
    rw [same, same']
    exact Lockstep.imp _ (beyond.inStep beyond') fun _ _ _ => trivial

theorem Items.agree {r r' : Expr} {b b' : Assignment} {v : Value} (items : C.Items item item')
    (related : C.rel e e') (read : yields ((Pass.readingBack item input).run e) r)
    (read' : yields ((Pass.readingBack item' input').run e') r') (bound_ : b.param input = some v)
    (bound' : b'.param input' = some v) (free : ∀ p : Param, p.id < bound → b.param p = b'.param p) :
    Agreement.sameKind.rel (r.eval b) (r'.eval b') := by
  induction e using partsInduction generalizing e' r r' with
  | step e ih =>
    have back := items.back related
    rcases Pass.readingBackStep read with ⟨path, i, by_, followed⟩ | ⟨absent, other, rebuilt⟩ <;>
      rcases Pass.readingBackStep read' with ⟨path', i', by_', followed'⟩ | ⟨absent', other', rebuilt'⟩
    · rw [Pass.backWay.mp by_, Pass.backWay.mp by_'] at back
      cases back with
      | some outcomes => cases outcomes with
        | ok same =>
          subst same
          rw [Path.followEval followed, Path.followEval followed']
          simp only [Expr.eval, bound_, bound']
          exact Agreement.sameKind.refl _
    · rw [Pass.backWay.mp by_, Pass.noWay absent' other'] at back
      cases back
    · rw [Pass.noWay absent other, Pass.backWay.mp by_'] at back
      cases back
    · rcases C.shape related with ⟨_, _, _, _, rfl, rfl, _⟩ | ⟨_, shape⟩
      · exact absurd rfl (other _ _)
      · have known : Rebuilt (fun c c' => c ∈ e.parts ∧ C.rel c c') e e' :=
          shape.mono fun c inside c' related => ⟨inside, related⟩
        have crossed : Rebuilt (fun c' k => ∃ c ∈ e.parts, C.rel c c' ∧
            yields ((Pass.readingBack item input).run c) k) e' r :=
          known.join rebuilt fun c c' k both read => ⟨c, both.1, both.2, read⟩
        refine evalRebuilt (crossed.join rebuilt' fun c' k k' came read' => ?_) (fun i p same => ?_) fun i s same => ?_
        · obtain ⟨c, inside, related, read⟩ := came
          exact ih c inside related read read'
        · subst same
          cases rebuilt
          exact free p (C.params related)
        · subst same
          cases rebuilt
          exact absurd rfl (other _ _)

def unbound : Correspondence 0 where
  rel e e' := e = e' ∧ ∀ i p, .parameter i p ∉ e.nodes
  sources := Eq
  shape {e e'} := by
    rintro ⟨rfl, free⟩
    have parts : Rebuilt (fun c c' => c = c' ∧ ∀ i p, .parameter i p ∉ c.nodes) e e := rebuiltSelf fun c inside =>
      ⟨rfl, fun i p below => free i p (memNodes.mpr (.inr ⟨c, inside, below⟩))⟩
    cases e with
    | reference i s => exact .inl ⟨i, i, s, s, rfl, rfl, rfl⟩
    | _ => exact .inr ⟨rfl, parts⟩
  apart := by
    rintro a _ b _ ⟨rfl, _⟩ ⟨rfl, _⟩
    exact Iff.rfl
  sourcesApart := by
    rintro s _ t _ rfl rfl
    exact Iff.rfl
  typed same := same ▸ rfl
  params {i p e'} both := absurd (selfNode _) (both.2 i p)

omit C in
theorem unboundItems : unbound.Items item item := by
  refine ⟨rfl, fun {n n'} both => ?_⟩
  obtain ⟨rfl, _⟩ := both
  cases item.wayBack? n with
  | none => exact .none
  | some way => exact .some Outcomes.refl

end Correspondence

inductive Clause.Related (R : Expr → Expr → Prop) : Clause → Clause → Prop where
  | filter {e e' : Expr} (predicate : R e e') : Related R (.filter e) (.filter e')
  | sort {ks ks' : List SortKey}
      (keys : List.Forall₂ (fun k k' => R k.key k'.key ∧ k.descending = k'.descending) ks ks') :
      Related R (.sort ks) (.sort ks')

inductive ResultOperator.Related (R : Expr → Expr → Prop) (S : Source → Source → Prop) :
    ResultOperator → ResultOperator → Prop where
  | group {name : String} {id id' : Nat} {key key' element element' : Expr}
      (sources : S (groupSource name id key element) (groupSource name id' key' element')) (keys : R key key')
      (elements : R element element') : Related R S (.group name id key element) (.group name id' key' element')
  | distinct : Related R S .distinct .distinct
  | count : Related R S .count .count
  | first {orNull : Bool} : Related R S (.first orNull) (.first orNull)
  | take {n : Expr} : Related R S (.take n) (.take n)
  | skip {n : Expr} : Related R S (.skip n) (.skip n)

structure Query.Related (R : Expr → Expr → Prop) (S : Source → Source → Prop) (q q' : Query) : Prop where
  sources : S q.source q'.source
  origin : q'.origin = q.origin
  clauses : List.Forall₂ (Clause.Related R) q.clauses q'.clauses
  selector : R q.selector q'.selector
  operators : List.Forall₂ (ResultOperator.Related R S) q.operators q'.operators

section Related
variable {R R' : Expr → Expr → Prop} {S S' : Source → Source → Prop}

theorem Clause.Related.imp {c c' : Clause} (related : c.Related R c') (weaker : ∀ e e', R e e' → R' e e') :
    c.Related R' c' := by
  cases related with
  | filter predicate => exact .filter (weaker _ _ predicate)
  | sort keys => exact .sort (keys.imp fun k k' both => ⟨weaker _ _ both.1, both.2⟩)

theorem ResultOperator.Related.imp {op op' : ResultOperator} (related : op.Related R S op')
    (weaker : ∀ e e', R e e' → R' e e') (also : ∀ s s', S s s' → S' s s') : op.Related R' S' op' := by
  cases related with
  | group sources keys elements => exact .group (also _ _ sources) (weaker _ _ keys) (weaker _ _ elements)
  | distinct => exact .distinct
  | count => exact .count
  | first => exact .first
  | take => exact .take
  | skip => exact .skip

end Related

end SymbolicQuery
