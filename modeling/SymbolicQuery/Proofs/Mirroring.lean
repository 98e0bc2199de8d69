import SymbolicQuery.Proofs.Correspondence
import SymbolicQuery.Proofs.Operating

/-! Queries that correspond. Their functions have one outcome on every value, so their clauses keep the same
items in the same order, and their operators leave the same rows: they run in step. -/
namespace SymbolicQuery
open Results SymbolicQuery.Expr

def Closed.Alike (f g : Closed) : Prop := ∀ v, Outcomes Eq (f.call [v]) (g.call [v])

structure Query.KeyFunction.Alike (k k' : KeyFunction) : Prop where
  function : k.function.Alike k'.function
  descending : k.descending = k'.descending

theorem Closed.callRefused {f : Closed} {p : Param} {v : Value} (params : f.lambda.params = [p])
    (refused : p.ty.accepts v ≠ true) :
    f.call [v] = .error (.mismatch (.argument p.name) p.ty.text v.kindName) := by
  unfold call
  simp only [params, List.length_singleton, ne_eq, not_true_eq_false, ↓reduceIte, Lambda.bindArguments, refused]
  rfl

theorem Param.freshBeyond {bound : Nat} {name : String} {ty : Ty} :
    Fresh.Beyond bound (fun p => bound ≤ p.id ∧ p.ty = ty) (Param.fresh name ty) :=
  Fresh.beyondParam.bind fun _ within => Fresh.beyondPure ⟨within, rfl⟩

theorem Build.referenceBeyond {bound : Nat} {source : Source} :
    Fresh.Beyond bound (OfSource source) (Build.reference source) :=
  Fresh.beyondNode.bind fun i _ => Fresh.beyondPure ⟨i, rfl⟩

theorem Sorter.runAlike {ι α : Type} {order order' : ι → ι → Except QueryError Ordering} {stop : QueryError}
    (alike : ∀ i j, Outcomes Eq (order i j) (order' i j)) {t : Sorter ι α} {failed failed' : Option QueryError}
    (same : Option.Rel (fun e e' => e.kind = e'.kind) failed failed') :
    Outcomes Eq (t.run order stop failed) (t.run order' stop failed') := by
  induction t generalizing failed failed' with
  | done a =>
    cases same with
    | none => exact .ok rfl
    | some same => exact .error same
  | stopped => exact .error rfl
  | compares x y next ih =>
    have step := alike x y
    rw [run, run]
    revert step
    generalize order x y = first
    generalize order' x y = second
    intro step
    cases step with
    | ok o =>
      subst o
      exact ih _ same
    | error kinds =>
      refine ih false ?_
      cases same with
      | none => exact .some kinds
      | some same => exact .some same

namespace Query
variable {f g : Closed} {fs gs : List KeyFunction}

theorem selectAlike (alike : f.Alike g) (items : List Value) : Outcomes Eq (select f items) (select g items) := by
  induction items with
  | nil => exact .ok rfl
  | cons v rest ih =>
    unfold select
    exact Lockstep.outcomes.bindSame (alike v) fun _ => Lockstep.outcomes.bindSame ih fun _ => .ok rfl

theorem keysAlike (alike : List.Forall₂ KeyFunction.Alike fs gs) (v : Value) :
    Outcomes Eq (keysOf fs v) (keysOf gs v) := by
  have keys := Lockstep.outcomes.mapM alike fun k k' alike => alike.function v
  rw [List.forall₂_eq_eq_eq] at keys
  exact Lockstep.outcomes.bindSame keys fun _ => .ok rfl

theorem compareAlike (alike : List.Forall₂ KeyFunction.Alike fs gs) (as bs : List Value) :
    Outcomes Eq (compareKeys fs as bs) (compareKeys gs as bs) := by
  induction alike generalizing as bs with
  | nil => exact .ok rfl
  | cons head _ ih =>
    cases as with
    | nil => exact .ok rfl
    | cons a as =>
      cases bs with
      | nil => exact .ok rfl
      | cons b bs =>
        unfold compareKeys
        rw [head.descending]
        split
        · exact ih as bs
        · exact .ok rfl
        · exact .error rfl

theorem sortAlike (alike : List.Forall₂ KeyFunction.Alike fs gs) (items : List Value) :
    Outcomes Eq (sort fs items) (sort gs items) :=
  Lockstep.outcomes.bindSame (Lockstep.outcomes.mapSame (keysAlike alike) items) fun _ =>
    Lockstep.outcomes.bindSame (Sorter.runAlike (fun _ _ => compareAlike alike _ _) .none) fun _ => .ok rfl

def finish (q : Query) (item : Expr) (items : List Value) : Build Output := do
  let selector ← functionOf item q.selector
  let selected ← items.mapM fun v => selector.call [v]
  let rows ← Rows.make (.ofItem q.selector) selected
  q.operators.foldlM (fun input op => op.run input) (.rows rows)

end Query

namespace Correspondence
open Query ResultOperator
variable {bound : Nat} {C : Correspondence bound} {e e' item item' : Expr}

def Literals (l l' : Lambda) : Prop := Outcomes Closed.Alike l.close l'.close

theorem Items.unresolves (items : C.Items item item') (related : C.rel e e') :
    (Lockstep.building bound).rel Literals (item.unresolve e) (item'.unresolve e') := by
  refine Lockstep.bind _ (Param.freshBeyond.inStep Param.freshBeyond) fun p p' given =>
    Lockstep.bind _ (Build.inStepYields (items.reads related)) fun r r' made =>
      Lockstep.pure _ ?_
  obtain ⟨⟨beyond, ty⟩, beyond', ty'⟩ := given
  obtain ⟨_, read, read'⟩ := made
  obtain ⟨f, closes, same⟩ := Lambda.closeOf (l := ⟨[p], r⟩) (Pass.readingBackClosed read)
  obtain ⟨g, closes', same'⟩ := Lambda.closeOf (l := ⟨[p'], r'⟩) (Pass.readingBackClosed read')
  unfold Literals
  rw [closes, closes']
  refine .ok fun v => ?_
  have types : p'.ty = p.ty := ty'.trans (items.ty.trans ty.symm)
  by_cases accepted : p.ty.accepts v = true
  · rw [Closed.callOne (congrArg Lambda.params same) accepted, same,
      Closed.callOne (congrArg Lambda.params same') (types ▸ accepted), same']
    refine Outcomes.agree.mp (items.agree related read read' (if_pos rfl) (if_pos rfl) fun q known => ?_)
    have other : q ≠ p := fun same => absurd (same ▸ known) (Nat.not_lt.mpr beyond)
    have other' : q ≠ p' := fun same => absurd (same ▸ known) (Nat.not_lt.mpr beyond')
    exact (if_neg other).trans (if_neg other').symm
  · rw [Closed.callRefused (congrArg Lambda.params same) accepted,
      Closed.callRefused (congrArg Lambda.params same') (types ▸ accepted)]
    exact .error rfl

theorem Items.functions (items : C.Items item item') (related : C.rel e e') :
    (Lockstep.building bound).rel Closed.Alike (functionOf item e) (functionOf item' e') :=
  Lockstep.bind _ (items.unresolves related) fun _ _ alike => Build.inStepExcept alike

theorem Items.runClause {c c' : Clause} (items : C.Items item item') (clauses : c.Related C.rel c') (vs : List Value) :
    (Lockstep.building bound).rel Eq (runClause item c vs) (runClause item' c' vs) := by
  cases clauses with
  | filter predicate =>
    exact Lockstep.bind _ (items.functions predicate) fun f g alike =>
      Build.inStepExcept (selectAlike alike vs)
  | sort keys =>
    refine Lockstep.bind _ (Lockstep.mapM _ keys fun k k' both => ?_)
      fun fs gs alike => Build.inStepExcept (sortAlike alike vs)
    exact Lockstep.bind _ (items.functions both.1) fun f g alike =>
      Lockstep.pure _ ⟨alike, both.2⟩

structure SameRows (C : Correspondence bound) (rows rows' : Rows) : Prop where
  items : rows.items = rows'.items
  itemType : rows'.shape.itemType = rows.shape.itemType
  described : C.Items rows.shape.item rows'.shape.item

inductive SameOutput (C : Correspondence bound) : Output → Output → Prop where
  | rows {rows rows' : Rows} (same : C.SameRows rows rows') : SameOutput C (.rows rows) (.rows rows')
  | scalar {a b : Scalar} (ty : a.ty = b.ty) (value : a.value = b.value) : SameOutput C (.scalar a) (.scalar b)

theorem SameOutput.answer {o o' : Output} (same : C.SameOutput o o') :
    (o.shape.ty, o.value) = (o'.shape.ty, o'.value) := by
  cases same with
  | rows same => exact Prod.ext (congrArg Ty.sequence same.itemType.symm) (congrArg Value.array same.items)
  | scalar ty value => exact Prod.ext ty value

theorem SameOutput.rows? {o o' : Output} (same : C.SameOutput o o') : Outcomes C.SameRows o.rows? o'.rows? := by
  cases same with
  | rows same => exact .ok same
  | scalar => exact .error rfl

theorem madeRows {shape shape' : RowsShape} {vs : List Value} (itemType : shape'.itemType = shape.itemType)
    (described : C.Items shape.item shape'.item) : Outcomes C.SameRows (Rows.make shape vs) (Rows.make shape' vs) := by
  unfold Rows.make
  split <;> rename_i found <;> split <;> rename_i found'
  · exact .error rfl
  · rw [itemType, found] at found'
    cases found'
  · rw [itemType, found] at found'
    cases found'
  · exact .ok ⟨rfl, itemType, described⟩

theorem scalarInStep {ty ty' : Ty} {v : Value} (same : ty' = ty) :
    (Lockstep.building bound).rel C.SameOutput (do return .scalar (← Scalar.make ty v))
      (do return .scalar (← Scalar.make ty' v)) := by
  subst same
  exact Lockstep.bindSame _ (Build.inStepExcept Outcomes.refl) fun value =>
    Lockstep.pure _ (.scalar rfl rfl)

theorem SameRows.groupRows {rows rows' : Rows} {key key' element element' : Expr} (same : C.SameRows rows rows')
    (keys : C.rel key key') (elements : C.rel element element') :
    (Lockstep.building bound).rel Eq (groupRows rows key element) (groupRows rows' key' element') := by
  refine Lockstep.bind _ (Build.inStepEnsure (by rw [same.itemType, same.described.ty]) rfl) fun _ _ _ =>
    Lockstep.bind _ (same.described.unresolves keys) fun kl kl' literals =>
    Lockstep.bind _ (Build.inStepExcept literals) fun kf kf' keyAlike =>
    Lockstep.bind _ (same.described.unresolves elements) fun el el' literals' =>
    Lockstep.bind _ (Build.inStepExcept literals') fun ef ef' elementAlike => ?_
  rw [← same.items]
  refine Lockstep.bindSame _ (Lockstep.mapSame _ (fun v => ?_) rows.items) fun pairs =>
    Lockstep.pure _ rfl
  exact Lockstep.bindSame _ (Build.inStepExcept (keyAlike v)) fun k =>
    Lockstep.bindSame _ (Build.inStepExcept (elementAlike v)) fun e => Lockstep.pure _ rfl

theorem SameRows.keep {rows rows' : Rows} {kept kept' : List Value} {among : kept.Sublist rows.items}
    {among' : kept'.Sublist rows'.items} (same : C.SameRows rows rows') (left : kept = kept') :
    C.SameOutput (.rows (rows.keep kept among)) (.rows (rows'.keep kept' among')) :=
  .rows ⟨left, same.itemType, same.described⟩

theorem SameOutput.run {op op' : ResultOperator} {o o' : Output} (operators : op.Related C.rel C.sources op')
    (same : C.SameOutput o o') : (Lockstep.building bound).rel C.SameOutput (op.run o) (op'.run o') := by
  cases operators with
  | group sources keys elements =>
    refine Lockstep.bind _ (Build.inStepExcept same.rows?) fun rows rows' same =>
      Lockstep.bindSame _ (same.groupRows keys elements) fun groups =>
      Lockstep.bind _ (Build.referenceBeyond.inStep Build.referenceBeyond) fun n n' refer => ?_
    obtain ⟨⟨i, rfl⟩, j, rfl⟩ := refer
    have described := C.references (i := i) (j := j) sources
    exact Lockstep.bind _ (Build.inStepExcept (madeRows described.ty described)) fun made made' same =>
      Lockstep.pure _ (.rows same)
  | distinct =>
    exact Lockstep.bind _ (Build.inStepExcept same.rows?) fun rows rows' same =>
      Lockstep.pure _ (same.keep (by rw [same.items]))
  | count =>
    refine Lockstep.bind _ (Build.inStepExcept same.rows?) fun rows rows' same => ?_
    rw [same.items]
    exact scalarInStep rfl
  | first =>
    refine Lockstep.bind _ (Build.inStepExcept same.rows?) fun rows rows' same => ?_
    rw [same.items]
    cases rows'.items.head? with
    | some v => exact scalarInStep same.itemType
    | none => exact Lockstep.bind _ (Build.inStepEnsure rfl rfl) fun _ _ _ => scalarInStep same.itemType
  | take | skip =>
    exact Lockstep.bindSame _ (Build.inStepExcept Outcomes.refl) fun size =>
      Lockstep.bind _ (Build.inStepExcept same.rows?) fun rows rows' same =>
        Lockstep.pure _ (same.keep (by rw [same.items]))

theorem finishes {q q' : Query} (queries : q.Related C.rel C.sources q') {i j : Nat} (kept : List Value) :
    (Lockstep.building bound).rel C.SameOutput (q.finish (.reference i q.source) kept)
      (q'.finish (.reference j q'.source) kept) := by
  have items := C.references (i := i) (j := j) queries.sources
  have described := C.related queries.selector
  exact Lockstep.bind _ (items.functions queries.selector) fun f g alike =>
    Lockstep.bindSame _ (Lockstep.mapSame _
      (fun v => Build.inStepExcept (alike v)) kept) fun selected =>
    Lockstep.bind _ (Build.inStepExcept (madeRows described.ty described)) fun rows rows' same =>
    Lockstep.foldlM _ queries.operators (fun op op' o o' operators same => same.run operators) (.rows same)

theorem execute {q q' : Query} (queries : q.Related C.rel C.sources q') :
    (Lockstep.building bound).rel C.SameOutput q.execute q'.execute := by
  unfold Query.execute
  rw [queries.origin]
  refine Lockstep.bindSame _ (Build.inStepExcept Outcomes.refl) fun vs =>
    Lockstep.bind _ (Build.referenceBeyond.inStep Build.referenceBeyond) fun n n' refer => ?_
  obtain ⟨⟨i, rfl⟩, j, rfl⟩ := refer
  have items := C.references (i := i) (j := j) queries.sources
  exact Lockstep.bindSame _ (Lockstep.foldlM _ (S := Eq) queries.clauses
    (fun c c' vs vs' clauses same => same ▸ items.runClause clauses vs) rfl) fun kept => finishes queries kept

end Correspondence

end SymbolicQuery
