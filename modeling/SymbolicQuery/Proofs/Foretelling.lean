import SymbolicQuery.Proofs.Linking
import SymbolicQuery.Proofs.Settling

/-! What a query says of its result, beside the type of its chain. As long as calls leave rows, the rows are described
with the type of the items of the chain; a count or a first row has the type of the chain, and no call after it has a
sequence to be made on. -/
namespace SymbolicQuery
open Results

namespace Query
variable {q q' : Query} {item item' : Expr} {c : Call} {calls : List Call} {input t : Ty} {read : Member → Prop}
  {s u : Supply}

def Shapes (q : Query) (P : Shape → Prop) : Prop := ∀ v, ∃ shape v', q.shape.run v = (.ok shape, v') ∧ P shape

def Shapeless (q : Query) (error : QueryError) : Prop := ∀ v, ∃ v', q.shape.run v = (.error error, v')

theorem shapeAdd {op : ResultOperator} : (q.addOperator op).shape = q.shape >>= op.shape := by
  unfold shape addOperator
  rw [List.foldlM_append]
  simp only [List.foldlM_cons, List.foldlM_nil, bind_pure]

theorem Shapes.add {op : ResultOperator} {P Q : Shape → Prop} (shapes : q.Shapes P)
    (next : ∀ shape, P shape → ∀ v, ∃ shape' v', (op.shape shape).run v = (.ok shape', v') ∧ Q shape') :
    (q.addOperator op).Shapes Q := by
  intro v
  obtain ⟨shape, w, run, holds⟩ := shapes v
  rw [shapeAdd, Build.runThen run]
  exact next shape holds w

def RowsOf (ty : Ty) (shape : Shape) : Prop := ∃ rows, shape = .rows rows ∧ rows.itemType = ty

theorem noOperators (none : q.operators = []) : q.Shapes (RowsOf q.selector.ty) := by
  intro v
  refine ⟨.rows (.ofItem q.selector), v, ?_, _, rfl, rfl⟩
  unfold shape
  rw [none]
  rfl

structure Agrees (read : Member → Prop) (t : Ty) (q : Query) (item : Expr) : Prop where
  faithful : item.Every (Expr.Faithful read)
  itemType : item.ty = t.itemType
  ty : t = .sequence t.itemType ∨ t = .any
  rows : q.Shapes (RowsOf t.itemType)

theorem referenceFaithful {i : Nat} {o : Source} : (Expr.reference i o).Every (Expr.Faithful read) :=
  Expr.everyIff.mpr ⟨⟨fun none => by (cases none), fun none => by cases none⟩, fun c none => by cases none⟩

theorem Starts.agrees {root : Expr} {i : Nat} (starts : Starts root q) :
    Agrees read root.ty q (.reference i q.source) := by
  obtain ⟨j, selector⟩ := starts.selector
  have rows : q.Shapes (RowsOf q.source.itemType) := by
    have shapes := noOperators starts.operators
    rw [selector] at shapes
    exact shapes
  have known := starts.itemType
  unfold itemTypeOf at known
  split at known
  · rename_i any
    have same := Except.ok.inj known
    rw [← same] at rows
    rw [any]
    exact ⟨referenceFaithful, same.symm, .inr rfl, rows⟩
  · rename_i sequence
    have same := Except.ok.inj known
    rw [← same] at rows
    rw [sequence]
    exact ⟨referenceFaithful, same.symm, .inl rfl, rows⟩
  · cases known

theorem Agrees.put {i : Nat} {p : Param} {body r : Expr} {v : Supply} (agrees : Agrees read input q item)
    (put : item.PutsFrom s p body r v) (ty : p.ty = input.itemType)
    (faithful : (Expr.lambda i [p] body).Every (Expr.Faithful read)) : r.Every (Expr.Faithful read) ∧ r.ty = body.ty :=
  Expr.putTyped put.puts (agrees.itemType.trans ty.symm) agrees.faithful (faithful.part List.mem_cons_self)

theorem groupShapes {name : String} {id : Nat} {key element : Expr} {ty : Ty}
    (shapes : q.Shapes (RowsOf ty)) :
    (q.addOperator (.group name id key element)).Shapes (RowsOf (.grouping key.ty element.ty)) := by
  refine shapes.add fun shape rows v => ?_
  obtain ⟨rows, rfl, _⟩ := rows
  exact ⟨_, _, rfl, _, rfl, rfl⟩

theorem keptShapes {op : ResultOperator} {ty : Ty} (shapes : q.Shapes (RowsOf ty))
    (keeps : ∀ rows v, (op.shape (.rows rows)).run v = (.ok (.rows rows), v)) : (q.addOperator op).Shapes (RowsOf ty) := by
  refine shapes.add fun shape rows v => ?_
  obtain ⟨rows, rfl, same⟩ := rows
  exact ⟨_, _, keeps rows v, rows, rfl, same⟩

theorem Agrees.join (agrees : Agrees read input q item) (joins : c.Joins q item s q' item' u) (types : c.Types input t)
    (args : ∀ a ∈ c.args, a.Every (Expr.Faithful read)) (many : ¬ c.IsSingle) : Agrees read t q' item' := by
  cases joins with
  | filter first put => cases types with
    | filter upon => exact ⟨agrees.faithful, agrees.itemType, agrees.ty, agrees.rows⟩
  | sort first put => cases types with
    | sort upon => exact ⟨agrees.faithful, agrees.itemType, agrees.ty, agrees.rows⟩
  | sortDescending first put => cases types with
    | sortDescending upon => exact ⟨agrees.faithful, agrees.itemType, agrees.ty, agrees.rows⟩
  | project first put => cases types with
    | project upon =>
      obtain ⟨_, _, same, ty⟩ := upon
      cases same
      obtain ⟨faithful, made⟩ := agrees.put put ty (args _ List.mem_cons_self)
      have rows : Shapes { q with selector := item' } (RowsOf item'.ty) := noOperators first
      exact ⟨faithful, made, .inl rfl, made ▸ rows⟩
  | group put => cases types with
    | group upon =>
      obtain ⟨_, _, same, ty⟩ := upon
      cases same
      have key := (agrees.put put ty (args _ List.mem_cons_self)).2
      have types := congrArg₂ Ty.grouping key agrees.itemType
      exact ⟨referenceFaithful, types, .inl rfl, types ▸ groupShapes agrees.rows⟩
  | groupElements put put' => cases types with
    | groupElements upon upon' =>
      obtain ⟨_, _, same, ty⟩ := upon
      obtain ⟨_, _, same', ty'⟩ := upon'
      cases same
      cases same'
      have key := (agrees.put put ty (args _ List.mem_cons_self)).2
      have element := (agrees.put put' ty' (args _ (List.mem_cons_of_mem _ List.mem_cons_self))).2
      have types := congrArg₂ Ty.grouping key element
      exact ⟨referenceFaithful, types, .inl rfl, types ▸ groupShapes agrees.rows⟩
  | distinct => cases types with
    | distinct => exact ⟨agrees.faithful, agrees.itemType, agrees.ty, keptShapes agrees.rows fun _ _ => rfl⟩
  | take => cases types with
    | take => exact ⟨agrees.faithful, agrees.itemType, agrees.ty, keptShapes agrees.rows fun _ _ => rfl⟩
  | skip => cases types with
    | skip => exact ⟨agrees.faithful, agrees.itemType, agrees.ty, keptShapes agrees.rows fun _ _ => rfl⟩
  | count => exact absurd (.inl rfl) many
  | first => exact absurd (.inr (.inl rfl)) many
  | firstOrNull => exact absurd (.inr (.inr rfl)) many

theorem Agrees.single (agrees : Agrees read input q item) (joins : c.Joins q item s q' item' u) (types : c.Types input t)
    (one : c.IsSingle) : q'.Shapes (· = .scalar t) := by
  have scalar : ∀ {op : ResultOperator}, (∀ rows v, rows.itemType = input.itemType →
      (op.shape (.rows rows)).run v = (.ok (.scalar t), v)) → (q.addOperator op).Shapes (· = .scalar t) := by
    intro op leaves
    refine agrees.rows.add fun shape rows v => ?_
    obtain ⟨rows, rfl, same⟩ := rows
    exact ⟨_, _, leaves rows v same, rfl⟩
  cases joins with
  | count => cases types with
    | count => exact scalar fun _ _ _ => rfl
  | first => cases types with
    | first => exact scalar fun rows v same => by rw [← same]; rfl
  | firstOrNull => cases types with
    | firstOrNull => exact scalar fun rows v same => by rw [← same]; rfl
  | _ => simp [Call.IsSingle] at one

theorem joinsLater (joins : c.Joins q item s q' item' u) (later : q.operators ≠ []) :
    ∃ op, q' = q.addOperator op ∧ op.name = c.stage.name := by
  cases joins with
  | filter first | sort first | sortDescending first | project first => exact absurd first later
  | _ => exact ⟨_, rfl, rfl⟩

theorem singleAdds (joins : c.Joins q item s q' item' u) (one : c.IsSingle) : ∃ op, q' = q.addOperator op := by
  cases joins with
  | filter | sort | sortDescending | project => simp [Call.IsSingle] at one
  | _ => exact ⟨_, rfl⟩

theorem operatorsAdded {op : ResultOperator} : (q.addOperator op).operators ≠ [] :=
  List.append_ne_nil_of_right_ne_nil _ (List.cons_ne_nil _ _)

theorem Shapes.stops {ty : Ty} (shapes : q.Shapes (· = .scalar ty)) (joins : c.Joins q item s q' item' u)
    (later : q.operators ≠ []) :
    q'.operators ≠ [] ∧ q'.Shapeless (.mismatch (.operatorInput c.stage.name) "sequence" ty.text) := by
  obtain ⟨op, rfl, name⟩ := joinsLater joins later
  refine ⟨operatorsAdded, fun v => ?_⟩
  obtain ⟨_, w, run, rfl⟩ := shapes v
  rw [shapeAdd, Build.runThen run, ← name]
  exact ⟨w, rfl⟩

theorem JoinsAll.shapeless {error : QueryError} (joins : JoinsAll q item s calls q' item' u)
    (shapeless : q.Shapeless error) (later : q.operators ≠ []) : q'.Shapeless error := by
  induction joins with
  | nil => exact shapeless
  | cons head _ ih =>
    obtain ⟨op, rfl, _⟩ := joinsLater head later
    refine ih (fun v => ?_) operatorsAdded
    obtain ⟨w, run⟩ := shapeless v
    rw [shapeAdd, Build.stopThen run]
    exact ⟨w, rfl⟩

theorem JoinsAll.split {before after : List Call} (joins : JoinsAll q item s (before ++ after) q' item' u) :
    ∃ mid item₁ s₁, JoinsAll q item s before mid item₁ s₁ ∧ JoinsAll mid item₁ s₁ after q' item' u := by
  induction before generalizing q item s with
  | nil => exact ⟨q, item, s, .nil, joins⟩
  | cons c rest ih =>
    cases joins with
    | cons head later =>
      obtain ⟨mid, item₁, s₁, first, next⟩ := ih later
      exact ⟨mid, item₁, s₁, .cons head first, next⟩

variable {base e chain root : Expr}

theorem agreesAlong (extends_ : base.Extends e) (bare : base.unchain.2 = []) (start : Agrees read base.ty q item)
    (faithful : ∀ c ∈ e.unchain.2, ∀ a ∈ c.args, a.Every (Expr.Faithful read)) (many : ∀ c ∈ e.unchain.2, ¬ c.IsSingle)
    (joins : JoinsAll q item s e.unchain.2 q' item' u) : Agrees read e.ty q' item' := by
  induction extends_ generalizing q' item' u with
  | root =>
    rw [bare] at joins
    cases joins
    exact start
  | call _ types ih =>
    obtain ⟨faithful, args⟩ := List.forall_mem_append.mp faithful
    obtain ⟨many, last⟩ := List.forall_mem_append.mp many
    obtain ⟨mid, item₁, s₁, first, next⟩ := JoinsAll.split joins
    cases next with
    | cons head rest =>
      cases rest
      exact (ih faithful many first).join head types (args _ List.mem_cons_self) (last _ List.mem_cons_self)

theorem extendsRows {ty : Ty} (extends_ : root.Extends e) (rows : root.ty = .sequence ty)
    (many : ∀ c ∈ e.unchain.2, ¬ c.IsSingle) : ∃ ty, e.ty = .sequence ty := by
  induction extends_ with
  | root => exact ⟨ty, rows⟩
  | call _ types ih =>
    obtain ⟨earlier, last⟩ := List.forall_mem_append.mp many
    have one := last _ List.mem_cons_self
    cases types with
    | filter | sort | sortDescending | distinct | take | skip => exact ih earlier
    | project | group | groupElements => exact ⟨_, rfl⟩
    | count | first | firstOrNull => simp [Call.IsSingle] at one

theorem Agrees.shaped {ty : Ty} (agrees : Agrees read t q item) (rows : t = .sequence ty) :
    q.Shapes fun shape => shape.ty = t := by
  intro v
  obtain ⟨shape, v', run, said, rfl, same⟩ := agrees.rows v
  refine ⟨_, v', run, ?_⟩
  rw [rows] at same ⊢
  exact congrArg Ty.sequence same

theorem singleAlong (extends_ : base.Extends e) (bare : base.unchain.2 = []) (start : Agrees read base.ty q item)
    (faithful : ∀ c ∈ e.unchain.2, ∀ a ∈ c.args, a.Every (Expr.Faithful read)) {before : List Call}
    (split : e.unchain.2 = before ++ [c]) (many : ∀ d ∈ before, ¬ d.IsSingle) (one : c.IsSingle)
    (joins : JoinsAll q item s e.unchain.2 q' item' u) : q'.Shapes (· = .scalar e.ty) ∧ q'.operators ≠ [] := by
  cases extends_ with
  | root => simp [bare] at split
  | call earlier types =>
    obtain ⟨rfl, last⟩ := List.append_inj' split rfl
    cases last
    obtain ⟨faithful, _⟩ := List.forall_mem_append.mp faithful
    obtain ⟨mid, item₁, s₁, first, next⟩ := JoinsAll.split joins
    cases next with
    | cons head rest =>
      cases rest
      obtain ⟨op, rfl⟩ := singleAdds head one
      exact ⟨(agreesAlong earlier bare start faithful many first).single head types one, operatorsAdded⟩

/-- What a query says of its result is of the type of its chain, whatever was given out before, if no call follows a
count or a first row. Otherwise the query says nothing, since the first call that does is on no sequence. Where a text may
name object types, members that it reads are given expressions of their types only. -/
theorem shapeGoesWithChain {types : List ObjectType} {text : String} {ty : Ty} {n n' : Nat} {s s' t t' : Supply}
    (linked : root.Linked) (rows : root.ty = .sequence ty)
    (read : (Expr.readChain types root text).run s = (.ok chain, s'))
    (built : ((assemble chain).run.run n).run t = ((.ok q, n'), t'))
    (honest : types = [] ∧ root.unchain.2 = [] ∨ Call.Honest chain.unchain.2) :
    (Call.SingleLast chain.unchain.2 → q.Shapes fun shape => shape.ty = chain.ty) ∧
    ∀ before c next after, chain.unchain.2 = before ++ c :: next :: after → (∀ d ∈ before, ¬ d.IsSingle) →
      c.IsSingle → ∃ e ∈ chain.nodes, e.unchain = (chain.unchain.1, before ++ [c]) ∧
        q.Shapeless (.mismatch (.operatorInput next.stage.name) "sequence" e.ty.text) := by
  obtain ⟨base, bare, upTo⟩ := linked
  have extended := Expr.readExtends ⟨s, s', read⟩
  have extends_ := upTo.trans extended
  obtain ⟨among, faithful⟩ : ∃ read, ∀ c ∈ chain.unchain.2, ∀ a ∈ c.args, a.Every (Expr.Faithful read) := by
    rcases honest with ⟨rfl, none⟩ | honest
    · exact ⟨_, Expr.readFaithful none ⟨s, s', read⟩⟩
    · exact ⟨_, fun c inside a argument => honest.faithful inside argument⟩
  obtain ⟨q₀, item, starts, _, _, joins⟩ := assembleJoins built
  rw [extends_.unchainRoot bare] at starts
  have start : Agrees among base.ty q₀ (.reference (t.node + 1) q₀.source) := starts.agrees
  refine ⟨fun ends => ?_, fun before c next after split many one => ?_⟩
  · have shaped : (∀ c ∈ chain.unchain.2, ¬ c.IsSingle) → q.Shapes fun shape => shape.ty = chain.ty := by
      intro many
      obtain ⟨_, sequence⟩ := extendsRows extended rows many
      exact (agreesAlong extends_ bare start faithful many joins).shaped sequence
    rcases List.eq_nil_or_concat chain.unchain.2 with none | ⟨before, last, split⟩
    · exact shaped (none ▸ fun c inside => by cases inside)
    · rw [List.concat_eq_append] at split
      have many := Call.SingleLast.many (split ▸ ends)
      by_cases one : last.IsSingle
      · intro v
        obtain ⟨_, v', run, rfl⟩ := (singleAlong extends_ bare start faithful split many one joins).1 v
        exact ⟨_, v', run, rfl⟩
      · refine shaped (split ▸ List.forall_mem_append.mpr ⟨many, ?_⟩)
        exact List.forall_mem_singleton.mpr one
  · rw [List.append_cons] at split
    obtain ⟨e, inside, upToSingle, unchain⟩ := extends_.part bare split
    refine ⟨e, inside, unchain, ?_⟩
    have calls : e.unchain.2 = before ++ [c] := congrArg Prod.snd unchain
    rw [split] at faithful joins
    obtain ⟨mid, item₁, s₁, first, later⟩ := joins.split
    rw [← calls] at faithful first
    obtain ⟨scalar, more⟩ := singleAlong upToSingle bare start (List.forall_mem_append.mp faithful).1 calls many one first
    cases later with
    | cons head rest =>
      obtain ⟨more, shapeless⟩ := scalar.stops head more
      exact rest.shapeless shapeless more

/- A type of the text, of which only one member is read, and a first row at the end. -/
theorem shapeGoesWithChainOfGroups : ∃ (types : List ObjectType) (chain : Expr) (q : Query) (t : Supply) (n : Nat) (u : Supply),
    pairOfWholes.Linked ∧ pairOfWholes.ty = .sequence .int ∧ types ≠ [] ∧
    (Expr.readChain types pairOfWholes
      "$.select(x => new T \x7b a = x, b = x \x7d).group_by(y => y.a + 1).first()").run ⟨1, 0, 0⟩ =
        (.ok chain, t) ∧
    ((assemble chain).run.run 0).run t = ((.ok q, n), u) ∧ Call.Honest chain.unchain.2 ∧
    chain.ty.text = "grouping<int, T>" ∧
    (Call.SingleLast chain.unchain.2 → q.Shapes fun shape => shape.ty = chain.ty) ∧
    ∀ before c next after, chain.unchain.2 = before ++ c :: next :: after → (∀ d ∈ before, ¬ d.IsSingle) →
      c.IsSingle → ∃ e ∈ chain.nodes, e.unchain = (chain.unchain.1, before ++ [c]) ∧
        q.Shapeless (.mismatch (.operatorInput next.stage.name) "sequence" e.ty.text) := by
  refine chainMeeting [.named "T" [("a", .int), ("b", .any)]] pairOfWholes
    "$.select(x => new T \x7b a = x, b = x \x7d).group_by(y => y.a + 1).first()" ⟨1, 0, 0⟩
    (fun chain _ _ _ => decide (Call.Honest chain.unchain.2 ∧ chain.ty.text = "grouping<int, T>"))
    (by decide +kernel) fun chain q n t u read built meets => ?_
  obtain ⟨honest, ty⟩ := of_decide_eq_true meets
  exact ⟨_, chain, q, t, n, u, ⟨pairOfWholes, rfl, .root⟩, rfl, List.cons_ne_nil _ _, read, built, honest, ty,
    shapeGoesWithChain ⟨pairOfWholes, rfl, .root⟩ rfl read built (.inr honest)⟩

def pairOfLists : Expr :=
  .constant 0 (.sequence (.sequence .int)) (.array [.array [.integer 1], .array [.integer 2, .integer 3]])

/- The text may count what a first row is, but the query may not. -/
theorem firstUncounted : ∃ (chain : Expr) (q : Query) (t : Supply) (n : Nat) (u : Supply),
    (Expr.readChain [] pairOfLists "$.first().count()").run ⟨1, 0, 0⟩ = (.ok chain, t) ∧ chain.ty = .int ∧
    ((assemble chain).run.run 0).run t = ((.ok q, n), u) ∧
    (q.shape.run u).1 = .error (.mismatch (.operatorInput "count") "sequence" "seq<int>") := by
  refine chainMeeting [] pairOfLists "$.first().count()" ⟨1, 0, 0⟩
    (fun chain q _ u => decide (chain.ty = .int ∧
      refusal? (q.shape.run u).1 = some (.mismatch (.operatorInput "count") "sequence" "seq<int>")))
    (by decide +kernel) fun chain q n t u read built meets => ?_
  obtain ⟨ty, refused⟩ := of_decide_eq_true meets
  exact ⟨chain, q, t, n, u, read, ty, built, (refusalRun refused).1⟩

theorem foldedRead : ∃ (chain : Expr) (q : Query) (t : Supply) (n : Nat) (u : Supply),
    (Expr.readChain [.named "T" [("a", .any)]] pairOfWholes "$.select(x => new T \x7b a = x \x7d.a)").run ⟨1, 0, 0⟩ =
      (.ok chain, t) ∧ chain.ty = .sequence .any ∧
    ((assemble chain).run.run 0).run t = ((.ok q, n), u) ∧
    (q.shape.run u).1.toOption.map Shape.ty = some (.sequence .int) := by
  refine chainMeeting [.named "T" [("a", .any)]] pairOfWholes "$.select(x => new T \x7b a = x \x7d.a)" ⟨1, 0, 0⟩
    (fun chain q _ u => decide (chain.ty = .sequence .any ∧
      (q.shape.run u).1.toOption.map Shape.ty = some (.sequence .int)))
    (by decide +kernel) fun chain q n t u read built meets => ?_
  obtain ⟨ty, shaped⟩ := of_decide_eq_true meets
  exact ⟨chain, q, t, n, u, read, ty, built, shaped⟩

theorem rootOfAnotherType : ∃ (root chain : Expr) (q : Query) (t : Supply) (n : Nat) (u : Supply),
    (Expr.readChain [] root "$").run ⟨2, 0, 0⟩ = (.ok chain, t) ∧ chain.ty = .sequence .string ∧
    ((assemble chain).run.run 0).run t = ((.ok q, n), u) ∧
    (q.shape.run u).1.toOption.map Shape.ty = some (.sequence .int) := by
  refine chainMeeting [] (.stageCall 1 (.sequence .string) .distinct pairOfWholes []) "$" ⟨2, 0, 0⟩
    (fun chain q _ u => decide (chain.ty = .sequence .string ∧
      (q.shape.run u).1.toOption.map Shape.ty = some (.sequence .int)))
    (by decide +kernel) fun chain q n t u read built meets => ?_
  obtain ⟨ty, shaped⟩ := of_decide_eq_true meets
  exact ⟨_, chain, q, t, n, u, read, ty, built, shaped⟩

end Query

end SymbolicQuery
