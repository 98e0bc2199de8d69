import SymbolicQuery.Proofs.Description
import SymbolicQuery.Proofs.Following

/-! Adjacent filters. Two filters go through the items one after the other, a filter on both conditions goes through
them once and leaves the second condition alone where the first is false. Which condition is decided on which item, and
so which error comes first, is not the same; but either all that is needed is decided, and the same items are left, or
neither succeeds. -/
namespace SymbolicQuery
open Results SymbolicQuery.Expr

def Lockstep.succeeding (bound : Nat) : Lockstep Build where
  rel R x y := ∀ s t : Supply, bound ≤ s.param → bound ≤ t.param →
    Option.Rel R (x.run s).1.toOption (y.run t).1.toOption ∧ bound ≤ (x.run s).2.param ∧ bound ≤ (y.run t).2.param
  pure related s t within within' := ⟨.some related, within, within'⟩
  bind {_ _ _ _ _ _ x y f g} first next s t within within' := by
    obtain ⟨together, later, later'⟩ := first s t within within'
    cases run : x.run s with
    | mk r u => cases run' : y.run t with
      | mk r' u' =>
        rw [run, run'] at together
        rw [run] at later
        rw [run'] at later'
        cases r with
        | error e => cases r' with
          | error e' =>
            rw [Build.stopThen run, Build.stopThen run']
            exact ⟨.none, later, later'⟩
          | ok b => cases together
        | ok a => cases r' with
          | error e' => cases together
          | ok b => cases together with
            | some related =>
              rw [Build.runThen run, Build.runThen run']
              exact next a b related u u' later later'

namespace Build
variable {α β : Type} {bound : Nat} {R : α → β → Prop}

theorem succeedInStep {x : Build α} {y : Build β} (h : (Lockstep.building bound).rel R x y) :
    (Lockstep.succeeding bound).rel R x y := by
  intro s t within within'
  obtain ⟨outcomes, later⟩ := h s t within within'
  refine ⟨?_, later⟩
  generalize (x.run s).1 = r, (y.run t).1 = r' at outcomes ⊢
  cases outcomes with
  | ok related => exact .some related
  | error => exact .none

def ComesTo (bound : Nat) (x : Build α) (result : Option α) : Prop :=
  ∀ s : Supply, bound ≤ s.param → (x.run s).1.toOption = result ∧ bound ≤ (x.run s).2.param

theorem ComesTo.bind {x : Build α} {f : α → Build β} {a : Option α} {b : α → Option β} (first : ComesTo bound x a)
    (next : ∀ a, ComesTo bound (f a) (b a)) : ComesTo bound (x >>= f) (a.bind b) := by
  intro s within
  obtain ⟨same, later⟩ := first s within
  cases run : x.run s with
  | mk r t =>
    rw [run] at same later
    subst same
    cases r with
    | error e =>
      rw [stopThen run]
      exact ⟨rfl, later⟩
    | ok a =>
      rw [runThen run]
      exact next a t later

theorem ComesTo.succeed {x y : Build α} {a : Option α} (left : ComesTo bound x a) (right : ComesTo bound y a) :
    (Lockstep.succeeding bound).rel Eq x y := by
  intro s t within within'
  obtain ⟨same, later⟩ := left s within
  obtain ⟨same', later'⟩ := right t within'
  refine ⟨?_, later, later'⟩
  rw [same, same']
  cases a with
  | none => exact .none
  | some a => exact .some rfl

end Build

def Expr.Below (bound : Nat) (e : Expr) : Prop := ∀ i p, .parameter i p ∈ e.nodes → p.id < bound

theorem Expr.belowBoth {bound n : Nat} {t : Ty} {op : BinaryOp} {p r : Expr} (left : p.Below bound)
    (right : r.Below bound) : (Expr.binary n t op p r).Below bound := by
  intro k o node
  rcases memNodes.mp node with same | ⟨c, inside, node⟩
  · cases same
  · rcases List.mem_pair.mp inside with same | same
    · exact left k o (same ▸ node)
    · exact right k o (same ▸ node)

namespace Correspondence

def known (bound : Nat) : Correspondence bound where
  rel e e' := e = e' ∧ e.Below bound
  sources := Eq
  shape {e e'} := by
    rintro ⟨rfl, below⟩
    have parts : Rebuilt (fun c c' => c = c' ∧ c.Below bound) e e :=
      rebuiltSelf fun c inside => ⟨rfl, fun i p node => below i p (memNodes.mpr (.inr ⟨c, inside, node⟩))⟩
    cases e with
    | reference i s => exact .inl ⟨i, i, s, s, rfl, rfl, rfl⟩
    | _ => exact .inr ⟨rfl, parts⟩
  apart := by
    rintro a _ b _ ⟨rfl, _⟩ ⟨rfl, _⟩
    exact Iff.rfl
  sourcesApart := unbound.sourcesApart
  typed := unbound.typed
  params {i p e'} both := both.2 i p (selfNode _)

end Correspondence

namespace Expr
variable {s : Source} {e e' p r : Expr} {input : Param} {i bound : Nat} {v : Value}

def holdsOn? (s : Source) (e : Expr) (v : Value) : Option Bool :=
  if s.itemType.accepts v then (e.eval (Assignment.empty.bindSource s v)).toOption.map Value.isTrue else none

theorem evalAnd {t : Ty} {a : Assignment} : (Expr.binary i t .and p r).eval a = (p.eval a >>= fun l =>
    if l.isTrue then r.eval a >>= fun w => .ok (.boolean w.isTrue) else .ok (.boolean false)) := by
  rw [eval]
  refine congrArg (p.eval a >>= ·) (funext fun l => ?_)
  cases held : l.isTrue with
  | false => rw [if_pos ⟨rfl, rfl⟩]; rfl
  | true =>
    simp only [Value.apply, held, Bool.true_and, Bool.true_eq_false, and_false, reduceCtorEq, false_and, ↓reduceIte]

theorem bothHold {t : Ty} : (Expr.binary i t .and p r).holdsOn? s v =
    (p.holdsOn? s v).bind fun held => if held then r.holdsOn? s v else some false := by
  unfold holdsOn?
  rw [evalAnd]
  split
  · cases p.eval (Assignment.empty.bindSource s v) with
    | error => rfl
    | ok l =>
      change _ = if l.isTrue then _ else _
      cases held : l.isTrue with
      | false => simp only [bind, Except.bind, held, Bool.false_eq_true, ↓reduceIte]; rfl
      | true =>
        simp only [bind, Except.bind, held, ↓reduceIte]
        cases r.eval (Assignment.empty.bindSource s v) <;> rfl
  · rfl

theorem backFrom {path : Path} (back : (Expr.reference i s).BackBy e path) :
    path = [] ∧ ∃ j o, e = .reference j o ∧ s.id = o.id := by
  have way := Pass.backWay.mp back
  rw [referenceWays] at way
  cases e with
  | reference j o =>
    simp only [asSource?, Option.map_some, Option.some.injEq] at way
    split at way
    · rename_i same
      cases way
      exact ⟨rfl, j, o, rfl, same⟩
    · cases way
  | _ => cases way

theorem readBackOver (read : yields ((Pass.readingBack (.reference i s) input).run e) e') :
    ∀ o ∈ e.sources, o.id = s.id := by
  induction e using partsInduction generalizing e' with
  | step e ih =>
    intro o inside
    rw [sourcesParts] at inside
    rcases Pass.readingBackStep read with ⟨path, _, back, _⟩ | ⟨_, other, rebuilt⟩
    · obtain ⟨_, j, o', rfl, same⟩ := backFrom back
      cases List.mem_singleton.mp inside
      exact same.symm
    · rcases List.mem_append.mp inside with here | below
      · cases e with
        | reference j o' => exact absurd rfl (other j o')
        | _ => cases here
      · obtain ⟨c, part, refers⟩ := List.mem_flatMap.mp below
        obtain ⟨c', _, made⟩ := partFrom (List.Forall₂.flip rebuilt.parts) part
        exact ih c part made o refers

theorem readBackMisses {err : QueryError} (failed : fails ((Expr.reference i s).unresolve e) err) :
    ¬ ∀ o ∈ e.sources, o.id = s.id := by
  obtain ⟨j, o, shown, _, missed⟩ := unresolveFails failed
  intro stands
  have inside : o ∈ e.sources := List.mem_filterMap.mpr ⟨_, shown.node, rfl⟩
  rw [referencePaths, if_pos (stands o inside).symm] at missed
  cases missed

theorem readBackEval (below : ∀ j p, .parameter j p ∈ e.nodes → p ≠ input)
    (read : yields ((Pass.readingBack (.reference i s) input).run e) e') :
    Outcomes Eq (e.eval (Assignment.empty.bindSource s v)) (e'.eval (Assignment.empty.bind input v)) := by
  refine Outcomes.agree.mp (Pass.readingBackAgrees Agreement.sameKind read (if_pos rfl) (fun n path shown back => ?_)
    fun j p shown => (if_neg (below j p shown.node)).symm)
  obtain ⟨rfl, j, o, rfl, same⟩ := backFrom back
  simp only [eval, Assignment.bindSource, same, ↓reduceIte]
  exact Agreement.sameKind.refl _

end Expr

namespace Query
variable {s : Source} {e p r : Expr} {i bound : Nat}

theorem functionOver (below : e.Below bound) {t : Supply}
    (within : bound ≤ t.param) :
    (∃ f u, (functionOf (.reference i s) e).run t = (.ok f, u) ∧ (∀ o ∈ e.sources, o.id = s.id) ∧
      ∀ v, (f.call [v]).toOption.map Value.isTrue = e.holdsOn? s v) ∨
    ∃ err u, (functionOf (.reference i s) e).run t = (.error err, u) ∧ ¬ ∀ o ∈ e.sources, o.id = s.id := by
  cases run : (functionOf (.reference i s) e).run t with
  | mk result u =>
    cases result with
    | error err => exact .inr ⟨err, u, rfl, (functionEnds fun _ => readBackMisses).2 err ⟨t, u, run⟩⟩
    | ok f =>
      have made : leads (functionOf (.reference i s) e) t f u := run
      obtain ⟨l, w, unresolved, closes⟩ := Threaded.ofBind made
      obtain ⟨input, w', drawn, unresolved⟩ := Threaded.ofBind unresolved
      obtain ⟨e', _, read, last⟩ := Threaded.ofBind unresolved
      obtain ⟨rfl, -⟩ := Threaded.ofPure last
      have read : yields _ e' := Threaded.yields read
      have new : bound ≤ input.id ∧ input.ty = s.itemType := by
        have given : (Param.fresh "input" s.itemType).run t = (input, w') := Threaded.ofLiftT drawn
        have fresh : Fresh.Beyond bound _ (Param.fresh "input" s.itemType) := Param.freshBeyond
        have beyond := (fresh t within).1
        rwa [given] at beyond
      have same := Lambda.closeIs (Threaded.ofExcept closes).1
      refine .inl ⟨f, u, rfl, readBackOver read, fun v => ?_⟩
      unfold holdsOn?
      rw [← new.2]
      split
      · rename_i accepted
        rw [Closed.callOne (congrArg Lambda.params same) accepted, same]
        have other : ∀ j p, .parameter j p ∈ e.nodes → p ≠ input := fun j p node same =>
          absurd (same ▸ below j p node) (Nat.not_lt.mpr new.1)
        have outcomes := readBackEval (v := v) other read
        generalize e.eval _ = x, e'.eval _ = y at outcomes ⊢
        cases outcomes with
        | ok same => rw [same]
        | error => rfl
      · rename_i refused
        rw [Closed.callRefused (congrArg Lambda.params same) refused]
        rfl

def keeping? (holds : Value → Option Bool) : List Value → Option (List Value)
  | [] => some []
  | v :: rest => (holds v).bind fun held => (keeping? holds rest).map fun kept => if held then v :: kept else kept

theorem selectKeeps {f : Closed} (items : List Value) :
    (select f items).toOption = keeping? (fun v => (f.call [v]).toOption.map Value.isTrue) items := by
  induction items with
  | nil => rfl
  | cons v rest ih =>
    unfold select keeping?
    rw [← ih]
    cases f.call [v] with
    | error => rfl
    | ok w => cases select f rest <;> rfl

theorem keepingTwice {first second : Value → Option Bool} (items : List Value) :
    (keeping? first items).bind (keeping? second) =
      keeping? (fun v => (first v).bind fun held => if held then second v else some false) items := by
  induction items with
  | nil => rfl
  | cons v rest ih =>
    have next (f : Value → Option Bool) : keeping? f (v :: rest) =
        (f v).bind fun held => (keeping? f rest).map fun kept => if held then v :: kept else kept := rfl
    rw [next, next, ← ih]
    cases first v with
    | none => rfl
    | some held =>
      cases held with
      | false => cases keeping? first rest <;> simp
      | true =>
        cases keeping? first rest with
        | none => cases second v <;> rfl
        | some kept => rfl

def filtered? (s : Source) (e : Expr) (items : List Value) : Option (List Value) :=
  if ∀ o ∈ e.sources, o.id = s.id then keeping? (e.holdsOn? s) items else none

theorem filterComes (below : e.Below bound) (items : List Value) :
    Build.ComesTo bound (runClause (.reference i s) (.filter e) items) (filtered? s e items) := by
  intro t within
  have items' := (Correspondence.known bound).references (i := i) (j := i) (s := s) rfl
  have beyond := (items'.runClause (.filter ⟨rfl, below⟩) items t t within within).2.1
  refine ⟨?_, beyond⟩
  unfold filtered? runClause
  rcases functionOver below within with ⟨f, u, run, stands, holds⟩ | ⟨err, u, run, missed⟩
  · rw [Build.runThen run, if_pos stands, ← funext holds, ← selectKeeps]
    rfl
  · rw [Build.stopThen run, if_neg missed]
    rfl

theorem filteredTwice {n : Nat} {t : Ty} (items : List Value) :
    (filtered? s p items).bind (filtered? s r) = filtered? s (.binary n t .and p r) items := by
  have sources : (Expr.binary n t .and p r).sources = p.sources ++ r.sources := by
    rw [sourcesParts]
    simp [asSource?, parts]
  have both : holdsOn? s (.binary n t .and p r) = _ := funext fun v => bothHold
  unfold filtered?
  simp only [sources, List.forall_mem_append, both]
  by_cases left : ∀ o ∈ p.sources, o.id = s.id
  · by_cases right : ∀ o ∈ r.sources, o.id = s.id
    · simp only [if_pos left, if_pos right, if_pos (And.intro left right), keepingTwice]
    · simp only [if_neg right, if_neg fun both => right (And.right both), Option.bind_fun_none]
  · simp only [if_neg left, if_neg fun both => left (And.left both), Option.bind_none]

theorem clauseKnown {c : Clause} (below : ∀ e ∈ c.exprs, e.Below bound) :
    c.Related (Correspondence.known bound).rel c := by
  cases c with
  | filter e => exact .filter ⟨rfl, below e List.mem_cons_self⟩
  | sort keys =>
    refine .sort (List.forall₂_same.mpr fun k inside => ⟨⟨rfl, ?_⟩, rfl⟩)
    exact below k.key (List.mem_map_of_mem inside)

theorem operatorKnown {op : ResultOperator} (below : ∀ e ∈ op.exprs, e.Below bound) :
    op.Related (Correspondence.known bound).rel (Correspondence.known bound).sources op := by
  cases op with
  | group name id key element =>
    exact .group rfl ⟨rfl, below key List.mem_cons_self⟩
      ⟨rfl, below element (List.mem_cons_of_mem _ List.mem_cons_self)⟩
  | distinct => exact .distinct
  | count => exact .count
  | first => exact .first
  | take => exact .take
  | skip => exact .skip

abbrev runClauses (item : Expr) (clauses : List Clause) (items : List Value) : Build (List Value) :=
  clauses.foldlM (fun items clause => runClause item clause items) items

theorem clausesKnown {j : Nat} {clauses : List Clause} (below : ∀ c ∈ clauses, ∀ e ∈ c.exprs, e.Below bound)
    (items : List Value) : (Lockstep.succeeding bound).rel Eq (runClauses (.reference i s) clauses items)
      (runClauses (.reference j s) clauses items) := by
  have described := (Correspondence.known bound).references (i := i) (j := j) (s := s) rfl
  refine Build.succeedInStep (Lockstep.foldlM _ (T := fun c c' => c.Related (Correspondence.known bound).rel c')
    (S := Eq) (List.forall₂_same.mpr fun c inside => clauseKnown (below c inside)) (fun c c' vs vs' related same => ?_) rfl)
  exact same ▸ described.runClause related vs

theorem clausesBetween {j : Nat} {before middle middle' after : List Clause}
    (earlier : ∀ c ∈ before, ∀ e ∈ c.exprs, e.Below bound) (later : ∀ c ∈ after, ∀ e ∈ c.exprs, e.Below bound)
    (together : ∀ items, (Lockstep.succeeding bound).rel Eq (runClauses (.reference i s) middle items)
      (runClauses (.reference j s) middle' items)) (items : List Value) :
    (Lockstep.succeeding bound).rel Eq (runClauses (.reference i s) (before ++ (middle ++ after)) items)
      (runClauses (.reference j s) (before ++ (middle' ++ after)) items) := by
  unfold runClauses
  simp only [List.foldlM_append]
  exact Lockstep.bindSame _ (clausesKnown earlier items) fun items =>
    Lockstep.bindSame _ (together items) fun items => clausesKnown later items

theorem filtersTogether {j n : Nat} {t : Ty} (left : p.Below bound) (right : r.Below bound) (items : List Value) :
    (Lockstep.succeeding bound).rel Eq (runClauses (.reference i s) [.filter p, .filter r] items)
      (runClauses (.reference j s) [.filter (.binary n t .and p r)] items) := by
  unfold runClauses
  simp only [List.foldlM_cons, List.foldlM_nil, bind_pure]
  have twice := (filterComes (i := i) (s := s) left items).bind (filterComes (i := i) (s := s) right)
  rw [filteredTwice] at twice
  exact twice.succeed (filterComes (belowBoth left right) items)

end Query

theorem Expr.Alike.trans {a b c : Expr} (first : Expr.Alike a b) (second : Expr.Alike b c) : Expr.Alike a c := by
  cases first with
  | same => exact second
  | source => cases second <;> exact .source

inductive Output.Alike : Output → Output → Prop where
  | rows {rows rows' : Rows} (items : rows.items = rows'.items) (type : rows.shape.itemType = rows'.shape.itemType)
      (described : Expr.Alike rows.shape.item rows'.shape.item) : Alike (.rows rows) (.rows rows')
  | scalar {value : Scalar} : Alike (.scalar value) (.scalar value)

namespace Query
variable {q : Query} {o o' : Output} {bound : Nat}

theorem Describes.alike {said item : Expr} (describes : q.Describes said item) : Expr.Alike said item := by
  cases describes with
  | selector => exact .same
  | group => exact .source

theorem alikeOf {clauses : List Clause} {C : Correspondence bound} (ran : yields q.execute o)
    (ran' : yields ({ q with clauses } : Query).execute o') (same : C.SameOutput o o') : o.Alike o' := by
  obtain ⟨rows, shape, ran⟩ := executeRows ran
  obtain ⟨rows', shape', ran'⟩ := executeRows ran'
  have start : q.Foretells (.rows (.ofItem q.selector)) (.rows rows) := by
    refine .rows ?_ ?_ <;> rw [shape]
    exact .selector
  have start' : q.Foretells (.rows (.ofItem q.selector)) (.rows rows') := by
    refine .rows ?_ ?_ <;> rw [shape']
    exact .selector
  obtain ⟨said, _, run, beside⟩ := ResultOperator.shapesBeside (fun _ => id) start ran .start
  obtain ⟨_, _, run', beside'⟩ := ResultOperator.shapesBeside (fun _ => id) start' ran' .start
  cases run.symm.trans run'
  cases same with
  | rows same =>
    cases beside with
    | rows _ item => cases beside' with
      | rows _ item' => exact .rows same.items same.itemType.symm (item.alike.symm.trans item'.alike)
  | @scalar a b ty value =>
    obtain ⟨_, _, _⟩ := a
    obtain ⟨_, _, _⟩ := b
    cases ty
    cases value
    exact .scalar

theorem executesTogether {before after : List Clause} {p r : Expr} {n : Nat} {t : Ty}
    (adjacent : q.clauses = before ++ ([.filter p, .filter r] ++ after)) (known : ∀ e ∈ q.exprs, e.Below bound) :
    (Lockstep.succeeding bound).rel (Correspondence.known bound).SameOutput q.execute
      ({ q with clauses := before ++ ([.filter (.binary n t .and p r)] ++ after) } : Query).execute := by
  have below {c : Clause} (inside : c ∈ before ++ ([.filter p, .filter r] ++ after)) : ∀ e ∈ c.exprs, e.Below bound :=
    fun e member => known e (List.mem_cons_of_mem _ (List.mem_append_left _
      (List.mem_flatMap.mpr ⟨c, adjacent ▸ inside, member⟩)))
  have operators : List.Forall₂ (ResultOperator.Related (Correspondence.known bound).rel Eq) q.operators q.operators :=
    List.forall₂_same.mpr fun op inside => operatorKnown fun e member => known e (List.mem_cons_of_mem _
      (List.mem_append_right _ (List.mem_cons_of_mem _ (List.mem_flatMap.mpr ⟨op, inside, member⟩))))
  have selector : q.selector.Below bound :=
    known q.selector (List.mem_cons_of_mem _ (List.mem_append_right _ List.mem_cons_self))
  unfold execute
  refine Lockstep.bindSame _ (Build.succeedInStep (Build.inStepExcept Outcomes.refl)) fun items =>
    Lockstep.bind _ (Build.succeedInStep (Build.referenceBeyond.inStep Build.referenceBeyond)) fun m m' refer => ?_
  obtain ⟨⟨i, rfl⟩, j, rfl⟩ := refer
  rw [adjacent]
  refine Lockstep.bindSame _ (clausesBetween (fun c inside => below (List.mem_append_left _ inside))
    (fun c inside => below (List.mem_append_right _ (List.mem_append_right _ inside)))
    (filtersTogether (below (c := .filter p) (by simp) p List.mem_cons_self)
      (below (c := .filter r) (by simp) r List.mem_cons_self)) items) fun items => ?_
  -- what is left to do does not depend on the clauses
  have rest : ({ q with clauses := [] } : Query).Related (Correspondence.known bound).rel
      (Correspondence.known bound).sources { q with clauses := [] } := ⟨rfl, rfl, .nil, ⟨rfl, selector⟩, operators⟩
  exact Build.succeedInStep (Correspondence.finishes rest items)

/-- Two filters that stand next to each other can be replaced by one filter on both conditions, which can always be
built: the run succeeds if it did before, and then with the same result, whatever comes before and after. -/
theorem filtersFuse {before after : List Clause} {p r : Expr} {s : Supply}
    (adjacent : q.clauses = before ++ .filter p :: .filter r :: after) (known : ∀ e ∈ q.exprs, e.Below s.param) :
    ∃ both t, (Build.binary .and p r).run s = (.ok both, t) ∧ (Build.filter both).run t = (.ok (.filter both), t) ∧
      ∀ u u', s ≤ u → t ≤ u' → Option.Rel Output.Alike (q.execute.run u).1.toOption
        (({ q with clauses := before ++ .filter both :: after } : Query).execute.run u').1.toOption := by
  refine ⟨_, _, rfl, rfl, fun u u' start start' => ?_⟩
  have together : Option.Rel (Correspondence.known s.param).SameOutput (q.execute.run u).1.toOption
      (({ q with clauses := before ++ .filter (.binary s.node .bool .and p r) :: after } : Query).execute.run
        u').1.toOption :=
    (executesTogether adjacent known u u' start.2.1 start'.2.1).1
  cases run : q.execute.run u with
  | mk result v => cases run' : Query.execute _ |>.run u' with
    | mk result' v' =>
      rw [run, run'] at together
      cases result with
      | error => cases result' with
        | error => exact .none
        | ok => cases together
      | ok o => cases result' with
        | error => cases together
        | ok o' => cases together with
          | some same => exact .some (alikeOf ⟨u, v, run⟩ ⟨u', v', run'⟩ same)

def condition? : Clause → Option Expr
  | .filter e => some e
  | .sort _ => none

theorem ofConditionAt {clauses : List Clause} {i : Nat} {e : Expr} (found : clauses[i]?.bind condition? = some e) :
    clauses.drop i = .filter e :: clauses.drop (i + 1) := by
  obtain ⟨c, placed, filters⟩ := Option.bind_eq_some_iff.mp found
  obtain ⟨inside, rfl⟩ := List.getElem?_eq_some_iff.mp placed
  rw [List.drop_eq_getElem_cons inside]
  cases shown : clauses[i] with
  | filter p =>
    rw [shown] at filters
    cases filters
    rfl
  | sort keys =>
    rw [shown] at filters
    cases filters

/- The second condition fails on the items that the first leaves out. -/
theorem filtersFuseOfQuotient : ∃ (chain : Expr) (q : Query) (s : Supply) (n : Nat) (t : Supply)
    (before after : List Clause) (p r : Expr), chain.Before s ∧ ((assemble chain).run.run 0).run s = ((.ok q, n), t) ∧
    q.clauses = before ++ .filter p :: .filter r :: after ∧ before.length = 1 ∧ after.length = 1 ∧
    (q.execute.run t).1.isOk = true ∧ (({ q with clauses := [.filter r] } : Query).execute.run t).1.isOk = false ∧
    ∃ both u, (Build.binary .and p r).run t = (.ok both, u) ∧ (Build.filter both).run u = (.ok (.filter both), u) ∧
      ∀ v v', t ≤ v → u ≤ v' → Option.Rel Output.Alike (q.execute.run v).1.toOption
        (({ q with clauses := before ++ .filter both :: after } : Query).execute.run v').1.toOption := by
  refine readMeeting [] pairOfWholes
    "$.where(w => w > 0).where(x => x != 1).where(y => 10 / (y - 1) > 1).order_by(z => z).select(x => x * 2)" ⟨1, 0, 0⟩
    (fun chain q s t => (q.clauses[1]?.bind condition?).any fun p => (q.clauses[2]?.bind condition?).any fun r =>
      decide (q.clauses.length = 4 ∧ chain.Before s ∧ (q.execute.run t).1.isOk = true ∧
        (({ q with clauses := [.filter r] } : Query).execute.run t).1.isOk = false))
    (by decide +kernel) fun chain q n s t built meets => ?_
  obtain ⟨p, first, meets⟩ := (Option.any_eq_true _ _).mp meets
  obtain ⟨r, second, meets⟩ := (Option.any_eq_true _ _).mp meets
  obtain ⟨four, issued, succeeds, alone⟩ := of_decide_eq_true meets
  obtain ⟨item, rest, layers⟩ := assembleLayers issued built
  have adjacent : q.clauses = q.clauses.take 1 ++ .filter p :: .filter r :: q.clauses.drop 3 := by
    rw [← ofConditionAt second, ← ofConditionAt first, List.take_append_drop]
  exact ⟨chain, q, s, n, t, _, _, p, r, issued, built, adjacent, by simp [four], by simp [four], succeeds, alone,
    filtersFuse adjacent fun e member i p inside => (layers.before e member _ inside).2⟩

end Query

end SymbolicQuery
