import SymbolicQuery.Proofs.Operating
import SymbolicQuery.Proofs.Weaving

/-! Queries of chains that refer to no source. Clauses and the selector refer to the source of the query
alone, and each grouping is woven over the item that its rows are described by. So no run ends for want
of a source or of a path to it. -/
namespace SymbolicQuery
open Results QueryError

namespace QueryError

def Settled : QueryError → Prop
  | .unresolved .. | .noPath .. => False
  | _ => True

theorem settledIff {e : QueryError} : e.Settled ↔ e.kind ≠ .unresolved ∧ e.kind ≠ .noPath := by
  cases e <;> simp [Settled, kind]

theorem Computing.settled {e : QueryError} (computing : e.Computing) : e.Settled := by
  cases e <;> first | exact computing | exact trivial

end QueryError

theorem Expr.Refuses.settled {err : QueryError} (refuses : Expr.Refuses err) : err.Settled := by
  obtain ⟨ty, step, _, rfl⟩ := refuses
  cases step <;> exact trivial

namespace Expr
variable {item item' e n : Expr} {s : Source}

def OverSource (s : Source) (e : Expr) : Prop := ∀ i s', .reference i s' ∈ e.nodes → s' = s

def Bare (e : Expr) : Prop := e.Every fun n => n.asSource? = none

theorem bareIff : e.Bare ↔ e.references = [] := by
  unfold Bare Every references
  rw [List.filter_eq_nil_iff]
  refine forall_congr' fun n => forall_congr' fun _ => ?_
  cases known : n.asSource? <;> simp [known]

theorem Bare.evalSettled {a : Assignment} (bare : e.Bare) : Expects (e.eval a) (fun _ => True) Settled :=
  evalExpects (fun _ => Computing.settled) e fun i s inside => by cases bare _ inside

inductive Alike : Expr → Expr → Prop where
  | same {e : Expr} : Alike e e
  | source {i j : Nat} {s : Source} : Alike (.reference i s) (.reference j s)

theorem Alike.symm (alike : Alike item item') : Alike item' item := by
  cases alike <;> constructor

theorem Alike.over (alike : Alike item item') (stands : item.OverSource s) : item'.OverSource s := by
  cases alike with
  | same => exact stands
  | @source i j t =>
    intro k s' inside
    cases List.mem_singleton.mp inside
    exact stands i _ (selfNode _)

def Upon (item e : Expr) : Prop := Woven item e ∨ ∃ i s, item = .reference i s ∧ e.OverSource s

theorem Woven.overSource (woven : Woven item e) (stands : item.OverSource s) : e.OverSource s :=
  fun i s' inside => stands i s' (woven.refers inside rfl)

theorem referenceOver {i : Nat} : (Expr.reference i s).OverSource s := by
  intro j s' inside
  cases List.mem_singleton.mp inside
  rfl

theorem Upon.alike (upon : Upon item e) (alike : Alike item item') : Upon item' e := by
  cases alike with
  | same => exact upon
  | source =>
    refine .inr ⟨_, _, rfl, ?_⟩
    rcases upon with woven | ⟨i, s, same, stands⟩
    · exact woven.overSource referenceOver
    · cases same
      exact stands

theorem OverSource.resolves {i : Nat} {err : QueryError} (stands : e.OverSource s) :
    ¬ fails ((Expr.reference i s).unresolve e) err := by
  intro failed
  obtain ⟨j, t, shown, _, failed⟩ := unresolveFails failed
  cases stands j t shown.node
  cases referencePath.symm.trans failed

theorem Upon.withholds {err : QueryError} (upon : Upon item e) (failed : fails (item.unresolve e) err) :
    Withholds item e err := by
  rcases upon with woven | ⟨i, s, rfl, stands⟩
  · exact woven.withholds failed
  · exact absurd failed stands.resolves

end Expr

theorem Closed.callSettled (f : Closed) (args : List Value) :
    Expects (f.call args) (fun _ => True) Settled := by
  have binds : ∀ (a : Assignment) ps vs, Expects (Lambda.bindArguments a ps vs) (fun _ => True) Settled := by
    intro a ps vs
    induction ps generalizing a vs with
    | nil => exact expectsOk trivial
    | cons p ps ih =>
      cases vs with
      | nil => exact expectsOk trivial
      | cons v vs =>
        unfold Lambda.bindArguments
        split
        · exact ih _ _
        · exact expectsError trivial
  unfold call
  dsimp only
  split
  · exact expectsError trivial
  · exact expectsBind (binds _ _ _) fun a _ => (Expr.bareIff.mpr f.closed).evalSettled

namespace ResultOperator
open SymbolicQuery.Expr
variable {selector item item' : Expr} {ops : List ResultOperator} {op : ResultOperator}

inductive Describing (selector : Expr) : List ResultOperator → Expr → Prop where
  | selected : Describing selector [] selector
  | grouped {ops : List ResultOperator} {op : ResultOperator} {source : Source} (i : Nat)
      (grouping : op.source? = some source) : Describing selector (ops ++ [op]) (.reference i source)
  | kept {ops : List ResultOperator} {op : ResultOperator} {item : Expr} (before : Describing selector ops item)
      (other : op.source? = none) : Describing selector (ops ++ [op]) item

theorem Describing.none (describing : Describing selector [] item) : item = selector := by
  generalize same : ([] : List ResultOperator) = ops at describing
  cases describing with
  | selected => rfl
  | grouped | kept => simp at same

theorem Describing.last (describing : Describing selector (ops ++ [op]) item) :
    (∃ i source, op.source? = some source ∧ item = .reference i source) ∨
      op.source? = .none ∧ Describing selector ops item := by
  generalize same : ops ++ [op] = all at describing
  cases describing with
  | selected => simp at same
  | grouped i grouping =>
    cases (List.append_inj' same rfl).2
    exact .inl ⟨i, _, grouping, rfl⟩
  | kept before other =>
    obtain ⟨rfl, last⟩ := List.append_inj' same rfl
    cases last
    exact .inr ⟨other, before⟩

theorem Describing.alike (first : Describing selector ops item) (second : Describing selector ops item') :
    Alike item item' := by
  induction ops using List.reverseRecOn with
  | nil => exact first.none ▸ second.none ▸ .same
  | append_singleton ops op ih =>
    rcases first.last with ⟨i, source, grouping, rfl⟩ | ⟨other, first⟩ <;>
      rcases second.last with ⟨j, source', grouping', rfl⟩ | ⟨other', second⟩
    · cases grouping.symm.trans grouping'
      exact .source
    · cases grouping.symm.trans other'
    · cases grouping'.symm.trans other
    · exact ih first second

end ResultOperator

namespace Query
open SymbolicQuery.Expr ResultOperator
variable {q q' : Query} {item item' : Expr} {c : Call} {op : ResultOperator}

structure Weaves (q : Query) (item : Expr) : Prop where
  clauses : ∀ c ∈ q.clauses, ∀ e ∈ c.exprs, e.OverSource q.source
  selector : q.selector.OverSource q.source
  counts : ∀ op ∈ q.operators, ∀ n, op = .take n ∨ op = .skip n → n.Bare
  item : ∃ described, Describing q.selector q.operators described ∧ Alike described item
  groups : ∀ before name id key element after described,
    q.operators = before ++ .group name id key element :: after → Describing q.selector before described →
      Upon described key ∧ Upon described element

theorem Starts.weaves {root : Expr} {i j : Nat} (starts : Starts root q) (selector : q.selector = .reference i q.source) :
    q.Weaves (.reference j q.source) := by
  refine ⟨fun c inside => ?_, selector ▸ referenceOver, fun op inside => ?_, ⟨q.selector, ?_, selector ▸ .source⟩,
    fun before name id key element after described split => ?_⟩
  · rw [starts.clauses] at inside
    cases inside
  · rw [starts.operators] at inside
    cases inside
  · rw [starts.operators]
    exact .selected
  · rw [starts.operators] at split
    simp at split

theorem Weaves.first (weaves : q.Weaves item) (first : q.operators = []) : item.OverSource q.source := by
  obtain ⟨described, describing, alike⟩ := weaves.item
  rw [first] at describing
  cases describing.none
  exact alike.over weaves.selector

theorem Weaves.addClause {clause : Clause} (weaves : q.Weaves item) (first : q.operators = [])
    (woven : ∀ e ∈ clause.exprs, Woven item e) : (q.addClause clause).Weaves item := by
  refine ⟨fun c inside e member => ?_, weaves.selector, weaves.counts, weaves.item, weaves.groups⟩
  rcases List.mem_append.mp inside with before | last
  · exact weaves.clauses c before e member
  · cases List.mem_singleton.mp last
    exact (woven e member).overSource (weaves.first first)

theorem Weaves.project {r : Expr} (weaves : q.Weaves item) (first : q.operators = []) (woven : Woven item r) :
    { q with selector := r }.Weaves r := by
  refine ⟨weaves.clauses, woven.overSource (weaves.first first), weaves.counts, ⟨r, ?_, .same⟩,
    fun before name id key element after described split => ?_⟩
  · dsimp only
    rw [first]
    exact .selected
  · dsimp only at split
    rw [first] at split
    simp at split

theorem Weaves.addOperator (weaves : q.Weaves item) (counts : ∀ n, op = .take n ∨ op = .skip n → n.Bare)
    (woven : ∀ name id key element, op = .group name id key element → Woven item key ∧ Woven item element)
    (next : (∃ i source, op.source? = some source ∧ item' = .reference i source) ∨
      op.source? = none ∧ item' = item) : (q.addOperator op).Weaves item' := by
  obtain ⟨described, describing, alike⟩ := weaves.item
  refine ⟨weaves.clauses, weaves.selector, fun o inside => ?_, ?_,
    fun before name id key element after other split describing' => ?_⟩
  · rcases List.mem_append.mp inside with before | last
    · exact weaves.counts o before
    · cases List.mem_singleton.mp last
      exact counts
  · rcases next with ⟨i, source, grouping, rfl⟩ | ⟨none, rfl⟩
    · exact ⟨_, .grouped i grouping, .same⟩
    · exact ⟨_, .kept describing none, alike⟩
  · -- the grouping is one of before, or the one that is added
    have split : q.operators ++ [op] = before ++ .group name id key element :: after := split
    rcases List.eq_nil_or_concat after with rfl | ⟨rest, last, rfl⟩
    · obtain ⟨rfl, same⟩ := List.append_inj' split rfl
      cases same
      obtain ⟨keyWoven, elementWoven⟩ := woven _ _ _ _ rfl
      have here : ∀ {e}, Woven item e → Upon other e := fun woven =>
        (Upon.alike (.inl woven) alike.symm).alike (describing.alike describing')
      exact ⟨here keyWoven, here elementWoven⟩
    · rw [List.concat_eq_append, ← List.cons_append, ← List.append_assoc] at split
      exact weaves.groups before name id key element rest other (List.append_inj' split rfl).1 describing'

theorem joinsWeave {s t : Supply} (joins : c.Joins q item s q' item' t) (bare : ∀ a ∈ c.args, a.Bare)
    (weaves : q.Weaves item) : q'.Weaves item' := by
  have body : ∀ {i p body r s t}, .lambda i [p] body ∈ c.args → item.PutsFrom s p body r t → Woven item r :=
    fun inside put => puttingWoven put.puts ((bare _ inside).part List.mem_cons_self)
  have plain : ∀ {op : ResultOperator}, (∀ n, op = .take n ∨ op = .skip n → n.Bare) → op.source? = none →
      (q.addOperator op).Weaves item := fun counts none =>
    weaves.addOperator counts (fun _ _ _ _ group => by subst group; cases none) (.inr ⟨none, rfl⟩)
  cases joins with
  | filter first put | sort first put | sortDescending first put =>
    refine weaves.addClause first fun e inside => ?_
    cases List.mem_singleton.mp inside
    exact body List.mem_cons_self put
  | project first put => exact weaves.project first (body List.mem_cons_self put)
  | group put =>
    refine weaves.addOperator (fun n either => by rcases either with h | h <;> cases h)
      (fun _ _ _ _ same => ?_) (.inl ⟨_, _, rfl, rfl⟩)
    cases same
    exact ⟨body List.mem_cons_self put, .spine .item⟩
  | groupElements put put' =>
    refine weaves.addOperator (fun n either => by rcases either with h | h <;> cases h)
      (fun _ _ _ _ same => ?_) (.inl ⟨_, _, rfl, rfl⟩)
    cases same
    exact ⟨body List.mem_cons_self put, body (List.mem_cons_of_mem _ List.mem_cons_self) put'⟩
  | take | skip =>
    refine plain (fun n either => ?_) rfl
    rcases either with same | same <;> cases same
    exact bare _ List.mem_cons_self
  | distinct | count | first | firstOrNull =>
    exact plain (fun n either => by rcases either with h | h <;> cases h) rfl

theorem JoinsAll.weaves {calls : List Call} {s t : Supply} (joins : JoinsAll q item s calls q' item' t)
    (bare : ∀ c ∈ calls, ∀ a ∈ c.args, a.Bare) (weaves : q.Weaves item) : q'.Weaves item' := by
  induction joins with
  | nil => exact weaves
  | cons head _ ih =>
    obtain ⟨here, later⟩ := List.forall_mem_cons.mp bare
    exact ih later (joinsWeave head here weaves)

theorem assembleWeaves {chain : Expr} {n n' : Nat} {s t : Supply} (bare : chain.references = [])
    (h : leads (assemble chain) (n, s) q (n', t)) : ∃ item, q.Weaves item := by
  obtain ⟨q₀, item, starts, _, selector, joins⟩ := assembleJoins h
  have none := bareIff.mpr bare
  exact ⟨item, joins.weaves (fun c inside a argument k node =>
    none k ((unchainWithin chain).2 c inside a argument k node)) (starts.weaves selector)⟩

theorem rowsSettled {shape : RowsShape} {items : List Value} :
    Expects (Rows.make shape items) (fun rows => rows.shape = shape) Settled := by
  refine ⟨fun rows made => (rowsMade made).1, fun e failed => ?_⟩
  unfold Rows.make at failed
  split at failed <;> cases failed
  trivial

theorem scalarSettled {ty : Ty} {value : Value} : Expects (Scalar.make ty value) (fun _ => True) Settled := by
  unfold Scalar.make
  split
  · exact expectsOk trivial
  · exact expectsError trivial

theorem inputSettled {o : Output} : Expects o.rows? (fun rows => o = .rows rows) Settled := by
  cases o with
  | rows r => exact expectsOk rfl
  | scalar => exact expectsError trivial

theorem Weaves.runs {before after : List ResultOperator} {o : Output} (weaves : q.Weaves item)
    (split : q.operators = before ++ op :: after)
    (described : ∀ rows, o = .rows rows → Describing q.selector before rows.shape.item) :
    Ends (op.run o) (fun o' => ∀ rows, o' = .rows rows → Describing q.selector (before ++ [op]) rows.shape.item)
      Settled := by
  have inside : op ∈ q.operators := split ▸ List.mem_append_right _ List.mem_cons_self
  have counted : ∀ {name n}, op = .take n ∨ op = .skip n → Expects (countOf name n) (fun _ => True) Settled :=
    fun either => countExpects (weaves.counts op inside _ either).evalSettled fun _ => trivial
  cases op with
  | group name id key element =>
    refine endsBind (endsExcept inputSettled) fun rows same => ?_
    obtain ⟨keyUpon, elementUpon⟩ := weaves.groups before name id key element after _ split (described rows same)
    refine endsBind (groupRowsExpects (K := fun _ => True) (L := fun _ => True) (fun _ _ _ => trivial)
      (fun e either err failed => ?_) (fun f _ v _ => f.callSettled [v]) (fun f _ v _ => f.callSettled [v]))
      fun groups _ => endsBind referenceEnds fun n refers => endsBind (endsExcept rowsSettled) fun rows' shape =>
        endsPure ?_
    · rcases either with rfl | rfl
      · exact (keyUpon.withholds failed).refuses.settled
      · exact (elementUpon.withholds failed).refuses.settled
    · intro rows'' same
      cases same
      obtain ⟨i, rfl⟩ := refers
      rw [shape]
      exact .grouped i rfl
  | distinct =>
    refine endsBind (endsExcept inputSettled) fun rows same => endsPure fun rows' kept => ?_
    cases kept
    exact .kept (described rows same) rfl
  | take n =>
    refine endsBind (endsExcept (counted (.inl rfl))) fun size _ =>
      endsBind (endsExcept inputSettled) fun rows same => endsPure fun rows' kept => ?_
    cases kept
    exact .kept (described rows same) rfl
  | skip n =>
    refine endsBind (endsExcept (counted (.inr rfl))) fun size _ =>
      endsBind (endsExcept inputSettled) fun rows same => endsPure fun rows' kept => ?_
    cases kept
    exact .kept (described rows same) rfl
  | count =>
    exact endsBind (endsExcept inputSettled) fun rows _ => endsBind (endsExcept scalarSettled) fun value _ =>
      endsPure fun rows' none => by cases none
  | first orNull =>
    refine endsBind (endsExcept inputSettled) fun rows _ => ?_
    split
    · exact endsBind (endsExcept scalarSettled) fun value _ => endsPure fun rows' none => by cases none
    · exact endsBind (endsEnsure fun _ => trivial) fun _ _ =>
        endsBind (endsExcept scalarSettled) fun value _ => endsPure fun rows' none => by cases none

theorem Weaves.runsAll {ops : List ResultOperator} {o : Output} (weaves : q.Weaves item)
    (before : List ResultOperator) (split : q.operators = before ++ ops)
    (described : ∀ rows, o = .rows rows → Describing q.selector before rows.shape.item) :
    Ends (ops.foldlM (fun input op => op.run input) o) (fun _ => True) Settled := by
  induction ops generalizing before o with
  | nil => exact endsPure trivial
  | cons op rest ih =>
    rw [List.foldlM_cons]
    refine endsBind (weaves.runs split described) fun o' described' => ih (before ++ [op]) ?_ described'
    rw [split, List.append_assoc, List.singleton_append]

theorem Weaves.executes (weaves : q.Weaves item) (origin : q.origin.Bare) :
    Ends q.execute (fun _ => True) Settled := by
  have items : Expects (itemsOf q.origin) (fun _ => True) Settled := by
    refine expectsBind origin.evalSettled fun v _ => ?_
    split
    · exact expectsOk trivial
    · exact expectsOk trivial
    · exact expectsError trivial
  refine endsBind (endsExcept items) fun items _ => endsBind referenceEnds fun n refers => ?_
  obtain ⟨i, rfl⟩ := refers
  refine endsBind (endsFold (I := fun _ => True) trivial fun items _ c inside => ?_) fun items _ => ?_
  · refine (runClauseExpects (fun _ => trivial) trivial (fun e member err failed => ?_)
      fun e _ f _ v _ => f.callSettled [v]).imp fun _ _ => trivial
    exact absurd failed (weaves.clauses c inside e member).resolves
  refine endsBind (functionEnds fun err failed => absurd failed weaves.selector.resolves) fun f _ =>
    endsBind (endsMap (R := fun _ _ => True) fun v _ => endsExcept (f.callSettled [v])) fun selected _ =>
    endsBind (endsExcept rowsSettled) fun rows shape => ?_
  refine weaves.runsAll [] rfl fun rows' same => ?_
  cases same
  rw [shape]
  exact .selected

/-- A chain that refers to no source gives a query that never fails for want of a source or of a path,
over whatever origin. The references of clauses and the selector are all read back from an item of
the source, and those of a grouping from what describes the rows before it, unless that withholds a node of them. -/
theorem executesSettled {chain : Expr} {n n' : Nat} {s t : Supply} (bare : chain.references = [])
    (built : ((assemble chain).run.run n).run s = ((.ok q, n'), t)) :
    (∀ origin : Expr, origin.references = [] → ∀ e, fails { q with origin }.execute e →
      e.kind ≠ .unresolved ∧ e.kind ≠ .noPath) ∧
    (∀ i e, (∃ c ∈ q.clauses, e ∈ c.exprs) ∨ e = q.selector →
      ∀ err, ¬ fails ((Expr.reference i q.source).unresolve e) err) ∧
    ∀ before name id key element after item, q.operators = before ++ .group name id key element :: after →
      Describing q.selector before item → ∀ e, e = key ∨ e = element →
        ∀ err, fails (item.unresolve e) err → Withholds item e err := by
  obtain ⟨item, weaves⟩ := assembleWeaves bare built
  refine ⟨fun origin none e failed => ?_, fun i e either err => ?_,
    fun before name id key element after item split describing e either err failed => ?_⟩
  · have weaves : { q with origin }.Weaves item :=
      ⟨weaves.clauses, weaves.selector, weaves.counts, weaves.item, weaves.groups⟩
    exact settledIff.mp ((weaves.executes (bareIff.mpr none)).2 e failed)
  · rcases either with ⟨c, inside, member⟩ | rfl
    · exact (weaves.clauses c inside e member).resolves
    · exact weaves.selector.resolves
  · obtain ⟨keyUpon, elementUpon⟩ := weaves.groups before name id key element after item split describing
    rcases either with rfl | rfl
    · exact keyUpon.withholds failed
    · exact elementUpon.withholds failed

theorem chainMeeting {P : Prop} (types : List ObjectType) (root : Expr) (text : String) (s : Supply)
    (condition : Expr → Query → Supply → Supply → Bool)
    (meets : (match (Expr.readChain types root text).run s with
      | (.ok chain, t) => match ((assemble chain).run.run 0).run t with
        | ((.ok q, _), u) => condition chain q t u
        | _ => false
      | _ => false) = true)
    (next : ∀ chain q n t u, (Expr.readChain types root text).run s = (.ok chain, t) →
      ((assemble chain).run.run 0).run t = ((.ok q, n), u) → condition chain q t u = true → P) : P := by
  split at meets
  · rename_i read
    split at meets
    · rename_i built
      exact next _ _ _ _ _ read built meets
    · cases meets
  · cases meets

theorem readMeeting {P : Prop} (types : List ObjectType) (root : Expr) (text : String) (s : Supply)
    (condition : Expr → Query → Supply → Supply → Bool)
    (meets : (match (Expr.readChain types root text).run s with
      | (.ok chain, t) => match ((assemble chain).run.run 0).run t with
        | ((.ok q, _), u) => condition chain q t u
        | _ => false
      | _ => false) = true)
    (next : ∀ chain q n t u, ((assemble chain).run.run 0).run t = ((.ok q, n), u) →
      condition chain q t u = true → P) : P :=
  chainMeeting types root text s condition meets fun chain q n t u _ => next chain q n t u

def pairOfWholes : Expr := .constant 0 (.sequence .int) (.array [.integer 1, .integer 2])

/- A projection, a grouping by a part of it, and a grouping of the groups. -/
theorem executesSettledOfGroups : ∃ chain q s n t, chain.references = [] ∧
    ((assemble chain).run.run 0).run s = ((.ok q, n), t) ∧ q.operators.length = 2 ∧
    (∀ origin : Expr, origin.references = [] → ∀ e, fails { q with origin }.execute e →
      e.kind ≠ .unresolved ∧ e.kind ≠ .noPath) ∧
    (∀ i e, (∃ c ∈ q.clauses, e ∈ c.exprs) ∨ e = q.selector →
      ∀ err, ¬ fails ((Expr.reference i q.source).unresolve e) err) ∧
    ∀ before name id key element after item, q.operators = before ++ .group name id key element :: after →
      Describing q.selector before item → ∀ e, e = key ∨ e = element →
        ∀ err, fails (item.unresolve e) err → Withholds item e err := by
  refine readMeeting [] pairOfWholes
    "$.where(w => w > 0).select(x => new \x7b a = x, b = x + 1 \x7d).group_by(y => y.b).group_by(g => g.key)" ⟨1, 0, 0⟩
    (fun chain q _ _ => decide (chain.references = [] ∧ q.operators.length = 2)) (by decide +kernel)
    fun chain q n t u built meets => ?_
  obtain ⟨bare, two⟩ := of_decide_eq_true meets
  exact ⟨chain, q, t, n, u, bare, built, two, executesSettled bare built⟩

def disguising : List ObjectType :=
  let x := .named "X" [("m", .int)]
  let u := .named "U" [("u", .int)]
  [.named "T" [("a", .any)], x, u, .named "B" [("b", .object u)], .named "D" [("c", .object x)]]

def refusal? {α : Type} : Except QueryError α → Option QueryError
  | .error e => some e
  | .ok _ => none

theorem refusalRun {α : Type} {x : Build α} {s : Supply} {e : QueryError} (h : refusal? (x.run s).1 = some e) :
    (x.run s).1 = .error e ∧ fails x e := by
  cases run : x.run s with
  | mk r t =>
    rw [run] at h
    cases r with
    | ok a => cases h
    | error e' =>
      cases h
      exact ⟨rfl, s, t, run⟩

def groupingKey? : ResultOperator → Option Expr
  | .group _ _ key _ => some key
  | _ => none

theorem ofGroupingKey {op : ResultOperator} {key : Expr} (keyed : groupingKey? op = some key) :
    ∃ name id element, op = .group name id key element := by
  cases op with
  | group name id key element =>
    cases keyed
    exact ⟨name, id, element, rfl⟩
  | _ => cases keyed

/- The items of the stage store the reference that the key is, but a member read on the way to it is refused:
it is declared on `X`, and `B` declares its member as `U`. -/
theorem groupingRefused : ∃ chain q s n t name id key element, chain.references = [] ∧
    ((assemble chain).run.run 0).run s = ((.ok q, n), t) ∧ q.operators = [.group name id key element] ∧
    Describing q.selector [] q.selector ∧ key ∈ q.selector.references ∧
    fails (q.selector.unresolve key) (.mismatch (.access "X::m") "X" "U") ∧
    (q.execute.run t).1 = .error (.mismatch (.access "X::m") "X" "U") := by
  refine readMeeting disguising pairOfWholes
    ("$.select(x => new T \x7b a = new X \x7b m = x \x7d \x7d).select(y => new B \x7b b = y.a \x7d)" ++
      ".group_by(p => new D \x7b c = new T \x7b a = p.b \x7d.a \x7d.c.m)") ⟨1, 0, 0⟩
    (fun chain q _ t => (q.operators.head?.bind groupingKey?).any fun key =>
      decide (q.operators.length = 1 ∧ chain.references = [] ∧ key ∈ q.selector.references ∧
        refusal? ((q.selector.unresolve key).run t).1 = some (.mismatch (.access "X::m") "X" "U") ∧
        refusal? (q.execute.run t).1 = some (.mismatch (.access "X::m") "X" "U")))
    (by decide +kernel) fun chain q n t u built meets => ?_
  obtain ⟨key, keyed, meets⟩ := (Option.any_eq_true _ _).mp meets
  obtain ⟨one, bare, inside, refused, ended⟩ := of_decide_eq_true meets
  obtain ⟨op, operators⟩ := List.length_eq_one_iff.mp one
  rw [operators] at keyed
  obtain ⟨name, id, element, rfl⟩ := ofGroupingKey keyed
  exact ⟨chain, q, t, n, u, name, id, key, element, bare, built, operators, .selected, inside,
    (refusalRun refused).2, (refusalRun ended).1⟩

end Query

end SymbolicQuery
