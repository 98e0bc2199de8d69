import SymbolicQuery.Proofs.Asking
import SymbolicQuery.Proofs.Operating

/-! Static types over a whole run. The values that a run computes are followed from the origin through
the clauses, the selector and the operators; each is a value of the type of its expression, so a
run never fails where a value is checked against a type. -/
namespace SymbolicQuery
open Results QueryError SymbolicQuery.Expr

namespace Query

def Leaves (q : Query) (clauses : List Clause) (items : List Value) : Prop :=
  ∃ i start, itemsOf q.origin = .ok start ∧
    yields (clauses.foldlM (fun items c => runClause (.reference i q.source) c items) start) items

def Selects (q : Query) (rows : Rows) : Prop :=
  ∃ i items f selected, q.Leaves q.clauses items ∧ FunctionFrom (.reference i q.source) q.selector f ∧
    List.Forall₂ (fun v w => f.call [v] = .ok w) items selected ∧
    Rows.make (.ofItem q.selector) selected = .ok rows

def Outputs (q : Query) (ops : List ResultOperator) (o : Output) : Prop :=
  ∃ rows, q.Selects rows ∧ yields (ops.foldlM (fun input op => op.run input) (.rows rows)) o

/-- The functions that a run calls, with the expressions that they come from and the values that they are
called on: those of a clause on the items before it, the selector on the items that are left, and key
and element of a grouping on the rows before it. -/
inductive Calls (q : Query) : Expr → Closed → Value → Prop where
  | clause {before after items i e f v} {c : Clause} (split : q.clauses = before ++ c :: after)
      (left : q.Leaves before items) (inside : e ∈ c.exprs)
      (made : FunctionFrom (.reference i q.source) e f) (among : v ∈ items) : Calls q e f v
  | select {items i f v} (left : q.Leaves q.clauses items)
      (made : FunctionFrom (.reference i q.source) q.selector f) (among : v ∈ items) :
      Calls q q.selector f v
  | group {before name id key element after e f v} {rows : Rows}
      (split : q.operators = before ++ .group name id key element :: after)
      (reached : q.Outputs before (.rows rows)) (inside : e = key ∨ e = element)
      (made : FunctionFrom rows.shape.item e f) (among : v ∈ rows.items) : Calls q e f v

inductive Computes (q : Query) : Ty → Value → Prop where
  | origin {v} (value : q.origin.evalClosed = .ok v) : Computes q q.origin.ty v
  | argument {e f p v} (call : q.Calls e f v) (param : f.lambda.params = [p]) : Computes q p.ty v
  | node {e f p v n u} (call : q.Calls e f v) (param : f.lambda.params = [p])
      (inside : n ∈ f.lambda.body.nodes) (value : n.eval (Assignment.empty.bind p v) = .ok u) :
      Computes q n.ty u
  | result {e f v u} (call : q.Calls e f v) (value : f.call [v] = .ok u) : Computes q e.ty u
  | count {op n k u} (inside : op ∈ q.operators) (counts : op = .take n ∨ op = .skip n)
      (node : k ∈ n.nodes) (value : k.evalClosed = .ok u) : Computes q k.ty u
  | output {before after o} (split : q.operators = before ++ after) (reached : q.Outputs before o) :
      Computes q o.shape.ty o.value

variable {root item : Expr} {q : Query} {t : Ty} {rows : Rows} {given : List Value}

theorem clausesEnd (stands : Stands root t q item) {clauses : List Clause}
    (inside : ∀ c ∈ clauses, c ∈ q.clauses) {i : Nat} {start : List Value}
    (holds : ∀ v ∈ start, q.source.itemType.Holds v) :
    Ends (clauses.foldlM (fun items c => runClause (.reference i q.source) c items) start)
      (fun items => ∀ v ∈ items, q.source.itemType.Holds v) Other :=
  endsFold holds fun _ known c member =>
    (runClauseEnds (stands.clauses c (inside c member)) known).imp fun _ among v left =>
      known v (among v left)

theorem Leaves.holds {clauses : List Clause} {items : List Value} (left : q.Leaves clauses items)
    (stands : Stands root t q item) (has : q.HasItems given) (inside : ∀ c ∈ clauses, c ∈ q.clauses) :
    ∀ v ∈ items, q.source.itemType.Holds v := by
  obtain ⟨i, start, known, folded⟩ := left
  cases known.symm.trans has.start
  exact (clausesEnd stands inside has.1).1 items folded

theorem selectedDescribed (stands : Stands root t q item) {i : Nat} {f : Closed} {items selected : List Value}
    (made : FunctionFrom (.reference i q.source) q.selector f)
    (holds : ∀ v ∈ items, q.source.itemType.Holds v)
    (called : List.Forall₂ (fun v w => f.call [v] = .ok w) items selected) :
    ∀ w ∈ selected, ∃ x, q.source.itemType.Holds x ∧ q.selector.eval (Assignment.at q.source x) = .ok w := by
  intro w inside
  obtain ⟨x, member, call⟩ := partFrom called inside
  have known := holds x member
  exact ⟨x, known, (made.value stands.selector known.accepts w).mp call⟩

theorem selectedOver (stands : Stands root t q item) {selected : List Value}
    (described : ∀ w ∈ selected, ∃ x, q.source.itemType.Holds x ∧
      q.selector.eval (Assignment.at q.source x) = .ok w)
    (made : rows.shape = .ofItem q.selector ∧ rows.items = selected) : rows.Over q.source := by
  obtain ⟨shape, items⟩ := made
  refine ⟨by rw [shape]; rfl, by rw [shape]; exact stands.selector, fun v inside => ?_⟩
  rw [shape]
  exact described v (items ▸ inside)

theorem Selects.upon (selects : q.Selects rows) (stands : Stands root t q item) (has : q.HasItems given) :
    rows.Over q.source := by
  obtain ⟨i, items, f, selected, left, made, called, made'⟩ := selects
  have described := selectedDescribed stands made (left.holds stands has fun _ => id) called
  refine selectedOver stands described ((rowsExpects (E := fun _ => True) fun w inside => ?_).1 rows made')
  obtain ⟨x, holds, value⟩ := described w inside
  exact describedAccepted stands holds value

end Query

namespace ResultOperator
variable {s t : Source} {before after : List ResultOperator} {op : ResultOperator}

theorem LeadAll.split (all : LeadAll s (before ++ op :: after) t) :
    ∃ u w, LeadAll s before u ∧ op.Leads u w := by
  induction before generalizing s with
  | nil => cases all with
    | cons leads _ => exact ⟨s, _, .nil, leads⟩
  | cons first rest ih => cases all with
    | cons leads later =>
      obtain ⟨u, w, before, here⟩ := ih later
      exact ⟨u, w, .cons leads before, here⟩

end ResultOperator

namespace Query
variable {root item : Expr} {q : Query} {t : Ty} {rows : Rows} {given : List Value}

theorem Outputs.upon {before after : List ResultOperator} {op : ResultOperator}
    (reached : q.Outputs before (.rows rows)) (split : q.operators = before ++ op :: after)
    (stands : Stands root t q item) (has : q.HasItems given) :
    ∃ s, rows.Over s ∧ (op.IsScalar ∨ ∃ u, op.Leads s u) := by
  obtain ⟨selected, selects, run⟩ := reached
  have upon := selects.upon stands has
  have leading : ∀ {s}, ResultOperator.LeadAll q.source before s → rows.Over s := fun all => by
    obtain ⟨rows', same, upon'⟩ := (all.run upon).1 _ run
    cases same
    exact upon'
  rcases stands.operators with ⟨s, all, _⟩ | ⟨s, live, sc, rest, same, all, scalar⟩
  · rw [split] at all
    obtain ⟨u, w, all, here⟩ := all.split
    exact ⟨u, leading all, .inr ⟨w, here⟩⟩
  · rcases List.append_eq_append_iff.mp (split.symm.trans same) with ⟨mid, inner, outer⟩ | ⟨mid, inner, outer⟩
    · cases mid with
      | nil =>
        cases outer
        rw [List.append_nil] at inner
        exact ⟨s, leading (inner ▸ all), .inl scalar⟩
      | cons first mid =>
        cases outer
        rw [inner] at all
        obtain ⟨u, w, all, here⟩ := all.split
        exact ⟨u, leading all, .inr ⟨w, here⟩⟩
    · cases mid with
      | nil =>
        cases outer
        rw [List.append_nil] at inner
        exact ⟨s, leading (inner.symm ▸ all), .inl scalar⟩
      | cons first mid =>
        cases outer
        rw [inner, List.foldlM_append] at run
        obtain ⟨o, first, run⟩ := ofBind run
        obtain ⟨rows', rfl, _⟩ := (all.run upon).1 o first
        rw [List.foldlM_cons] at run
        obtain ⟨o, ended, run⟩ := ofBind run
        obtain ⟨value, rfl⟩ := scalar.run.1 o ended
        cases ResultOperator.scalarRuns.1 _ run

theorem Calls.fits {e : Expr} {f : Closed} {v : Value} (call : q.Calls e f v)
    (stands : Stands root t q item) (has : q.HasItems given) : ∃ p, Fits f p e.ty v := by
  cases call with
  | @clause before after items i _ _ _ c split left inside made among =>
    have member : c ∈ q.clauses := split ▸ List.mem_append_right _ List.mem_cons_self
    have holds := left.holds stands has fun d earlier => split ▸ List.mem_append_left _ earlier
    exact made.fits (ofSourceSound ⟨i, rfl⟩) (stands.clauses c member e inside) (holds v among)
      (referenceEval ⟨i, rfl⟩)
  | @select items i _ _ left made among =>
    have holds := left.holds stands has fun _ => id
    exact made.fits (ofSourceSound ⟨i, rfl⟩) stands.selector (holds v among) (referenceEval ⟨i, rfl⟩)
  | group split reached inside made among =>
    obtain ⟨s, upon, scalar | ⟨u, leads⟩⟩ := reached.upon split stands has
    · exact scalar.elim
    · obtain ⟨x, holds, value⟩ := upon.described v among
      cases leads with
      | group keySound elementSound =>
        rcases inside with rfl | rfl
        · exact made.fits upon.sound keySound holds value
        · exact made.fits upon.sound elementSound holds value

theorem computesAccepted {v : Value} {T : Ty} (stands : Stands root t q item) (has : q.HasItems given)
    (computes : q.Computes T v) : T.accepts v = true := by
  cases computes with
  | origin value =>
    obtain ⟨holds, i, origin⟩ := has
    rw [origin] at value ⊢
    cases value
    exact (Ty.Holds.sequence holds).accepts
  | argument call param =>
    obtain ⟨p, fits⟩ := call.fits stands has
    cases fits.params.symm.trans param
    exact fits.argument.accepts
  | node call param inside value =>
    obtain ⟨p, fits⟩ := call.fits stands has
    cases fits.params.symm.trans param
    exact (fits.body _ inside v value).accepts
  | result call value =>
    obtain ⟨p, fits⟩ := call.fits stands has
    exact (fits.call.1 v value).accepts
  | count inside counts node value =>
    have closed : (_ : Expr).Sound NoLeaf := (stands.counts _ inside _ counts).node node
    exact (closed.evalHolds (fun _ none => none.elim) value).accepts
  | output split reached => exact Output.accepted _

theorem executeEnds (stands : Stands root t q item) (has : q.HasItems given) :
    Ends q.execute (q.Outputs q.operators) Other := by
  refine endsKnown has.start (endsBind referenceEnds fun n refers => ?_)
  obtain ⟨i, rfl⟩ := refers
  refine endsBind (clausesEnd stands (fun _ => id) has.1).yielded fun items ⟨kept, folded⟩ => ?_
  refine endsBind (functionEnds unresolveUnchecked.2) fun f from_ => ?_
  refine endsBind (endsMap (R := fun v w => f.call [v] = .ok w) fun v inside => ?_) fun selected called => ?_
  · obtain ⟨p, fits⟩ := from_.fits (ofSourceSound ⟨i, rfl⟩) stands.selector (kept v inside)
      (referenceEval ⟨i, rfl⟩)
    exact endsExcept fits.call.made
  have described := selectedDescribed stands from_ kept called
  refine endsBind (endsExcept (rowsExpects fun w inside => ?_).made) fun rows made' => ?_
  · obtain ⟨x, known, value⟩ := described w inside
    exact describedAccepted stands known value
  have selects : q.Selects rows := ⟨i, items, f, selected, ⟨i, _, has.start, folded⟩, from_, called, made'⟩
  refine (?_ : Ends _ (fun _ => True) Other).yielded.imp fun o ⟨_, run⟩ => ⟨rows, selects, run⟩
  have upon := selects.upon stands has
  -- behind an operator that leaves a single value no other one runs
  rcases stands.operators with ⟨s, all, _⟩ | ⟨s, live, sc, rest, same, all, scalar⟩
  · exact (all.run upon).imp fun _ _ => trivial
  · rw [same, List.foldlM_append]
    refine endsBind (all.run upon) ?_
    intro o left
    obtain ⟨rows', rfl, _⟩ := left
    rw [List.foldlM_cons]
    refine endsBind scalar.run ?_
    intro o left
    obtain ⟨value, rfl⟩ := left
    exact ResultOperator.scalarRuns.imp fun _ _ => trivial

end Query

namespace Command
variable {text input : String} {js : List Json} {s s' : Supply} {e : QueryError}

theorem answerRun : answer text (some input) =
    asked text input >>= fun r => querying r.2.execute >>= fun output => pure output.value.toJson := by
  simp [answer, answerOver, queryOver, asked]

theorem answerError (h : (answer text (some input)).run s = (.error (.query e), s')) :
    (∃ s₁, (root (some input)).run s = (.error (.query e), s₁)) ∨
      (∃ chain, fails (Query.ofChain chain) e) ∨
      ∃ chain q, Asks text input s chain q ∧ fails q.execute e := by
  rw [answerRun] at h
  rcases runBind h with ⟨_, failed, same⟩ | ⟨⟨chain, q⟩, s₁, made, h⟩
  · cases same
    rcases runBind failed with ⟨_, rooted, same⟩ | ⟨start, s₁, _, failed⟩
    · cases same
      exact .inl ⟨s', rooted⟩
    rcases runBind failed with ⟨_, read, same⟩ | ⟨chain, s₂, _, failed⟩
    · cases same
      obtain ⟨first, _, told⟩ := mappedRun read
      cases first <;> cases told
    rcases runBind failed with ⟨_, built, same⟩ | ⟨_, _, _, done⟩
    · cases same
      obtain ⟨first, run, told⟩ := mappedRun built
      cases first <;> cases told
      exact .inr (.inl ⟨chain, s₂, s', run⟩)
    · cases done
  · rcases runBind h with ⟨_, failed, same⟩ | ⟨_, _, _, done⟩
    · cases same
      obtain ⟨first, run, told⟩ := mappedRun failed
      cases first <;> cases told
      exact .inr (.inr ⟨chain, q, congrArg Prod.fst made, s₁, s', run⟩)
    · cases done

theorem rootOther (document : Json.read? input = some (.array js))
    (h : (root (some input)).run s = (.error (.query e), s')) : Other e := by
  rw [rootRun document] at h
  obtain ⟨first, run, told⟩ := mappedRun h
  cases first <;> cases told
  refine (?_ : Unchecked (Build.constant _ _)).2 e ⟨s, s', run⟩
  exact uncheckedBind (uncheckedEnsure not_false) fun _ => uncheckedBind uncheckedLift fun _ => uncheckedPure

/-- Over a document that is an array, and for a text in which no construction repeats a name, every value
that is computed is a value of the static type of its expression; and no error comes from checking
an argument, a row or a single result against a type. -/
theorem answerKeepsTypes (document : Json.read? input = some (.array js))
    (once : ∀ chain q, Asks text input s chain q → chain.Every NamesOnce) :
    (∀ chain q, Asks text input s chain q → ∀ T v, q.Computes T v → T.accepts v = true) ∧
      ∀ e s', (answer text (some input)).run s = (.error (.query e), s') → ¬ e.FromCheck := by
  refine ⟨fun chain q asks T v computes => ?_, fun e s' h => ?_⟩
  · obtain ⟨start, item, t, stands, has⟩ := asksStands document asks (once chain q asks)
    exact Query.computesAccepted stands has computes
  · rcases answerError h with ⟨s₁, rooted⟩ | ⟨chain, failed⟩ | ⟨chain, q, asks, failed⟩
    · exact rootOther document rooted
    · exact Query.ofChainUnchecked.2 e failed
    · obtain ⟨start, item, t, stands, has⟩ := asksStands document asks (once chain q asks)
      exact (Query.executeEnds stands has).2 e failed

/- Numbers of two kinds, a conversion, and groups with a construction for a key. -/
theorem answerKeepsTypesOfGroups : ∃ chain q,
    Asks "$.select(x => new \x7b a = x, b = x as int \x7d).group_by(y => new \x7b c = y.b \x7d, z => z.a)"
      "[1, 2.5, null]" .start chain q ∧ (∀ T v, q.Computes T v → T.accepts v = true) ∧
    ∀ e s', (answer
      "$.select(x => new \x7b a = x, b = x as int \x7d).group_by(y => new \x7b c = y.b \x7d, z => z.a)"
      (some "[1, 2.5, null]")).run .start = (.error (.query e), s') → ¬ e.FromCheck := by
  refine asksMeeting (fun _ chain _ => decide (∀ n ∈ chain.nodes, n.NamesOnce)) (by decide +kernel)
    fun js chain q document asks meets => ?_
  have once := of_decide_eq_true meets
  obtain ⟨typed, unchecked⟩ := answerKeepsTypes document fun chain' q' asks' => (asks.same asks').1 ▸ once
  exact ⟨typed chain q asks, unchecked⟩

end Command

end SymbolicQuery
