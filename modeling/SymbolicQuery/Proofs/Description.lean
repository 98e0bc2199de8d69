import SymbolicQuery.Proofs.Asking
import SymbolicQuery.Proofs.Operating

/-! What is said of a result before the run, beside what the run leaves. Both go through the operators
one by one: an operator that ran had rows before it, so the description goes on where the run did,
and the two stay apart only in the identity of a reference to the source of a grouping. -/
namespace SymbolicQuery
open Results

namespace Query
variable {q : Query} {shape : Shape} {o : Output}

inductive Describes (q : Query) : Expr → Expr → Prop where
  | selector : Describes q q.selector q.selector
  | group {i j : Nat} {op source} (inside : op ∈ q.operators) (known : op.source? = some source) :
      Describes q (.reference i source) (.reference j source)

inductive Foretells (q : Query) : Shape → Output → Prop where
  | rows {said : RowsShape} {rows : Rows} (type : said.itemType = rows.shape.itemType)
      (item : q.Describes said.item rows.shape.item) : Foretells q (.rows said) (.rows rows)
  | scalar {value : Scalar} : Foretells q (.scalar value.ty) (.scalar value)

theorem Foretells.ty (beside : q.Foretells shape o) : shape.ty = o.shape.ty := by
  cases beside with
  | rows type _ => exact congrArg Ty.sequence type
  | scalar => rfl

end Query

theorem scalarMade {ty : Ty} {value : Value} {made : Scalar} (h : Scalar.make ty value = .ok made) :
    made.ty = ty := by
  unfold Scalar.make at h
  split at h <;> cases h
  rfl

namespace ResultOperator
variable {q : Query} {said : RowsShape} {rows : Rows} {shape : Shape} {o o' : Output} {op : ResultOperator}

theorem runRows (ran : yields (op.run o) o') : ∃ rows, o = .rows rows := by
  cases o with
  | rows rows => exact ⟨rows, rfl⟩
  | scalar => exact (scalarRun.1 o' ran).elim

theorem groupMade {name : String} {id : Nat} {key element : Expr}
    (ran : yields ((group name id key element).run (.rows rows)) o') :
    ∃ j rows', o' = .rows rows' ∧ rows'.shape = .ofItem (.reference j (groupSource name id key element)) := by
  obtain ⟨_, _, ran⟩ := ofBind ran
  obtain ⟨groups, _, ran⟩ := ofBind ran
  obtain ⟨item, refers, ran⟩ := ofBind ran
  obtain ⟨rows', made, ran⟩ := ofBind ran
  cases ofPure ran
  obtain ⟨j, rfl⟩ := referenceYields refers
  exact ⟨j, rows', rfl, (rowsMade (ofExcept made)).1⟩

theorem firstMade {orNull : Bool} (ran : yields ((first orNull).run (.rows rows)) o') :
    ∃ value : Scalar, o' = .scalar value ∧ rows.shape.itemType = value.ty := by
  obtain ⟨_, known, ran⟩ := ofBind ran
  cases ofExcept known
  have scalar : ∀ {v}, yields (liftM (Scalar.make rows.shape.itemType v) >>= fun value =>
      (pure (.scalar value) : Build Output)) o' →
      ∃ value : Scalar, o' = .scalar value ∧ rows.shape.itemType = value.ty := by
    intro v ran
    obtain ⟨value, made, ran⟩ := ofBind ran
    cases ofPure ran
    exact ⟨value, rfl, (scalarMade (ofExcept made)).symm⟩
  split at ran
  · exact scalar ran
  · obtain ⟨_, _, ran⟩ := ofBind ran
    exact scalar ran

theorem shapeBeside (inside : op ∈ q.operators) (beside : q.Foretells shape o) (ran : yields (op.run o) o')
    (t : Supply) : ∃ shape' t', (op.shape shape).run t = (.ok shape', t') ∧ q.Foretells shape' o' := by
  obtain ⟨rows, rfl⟩ := runRows ran
  obtain ⟨type, item⟩ := beside
  cases op with
  | group name id key element =>
    obtain ⟨j, rows', rfl, made⟩ := groupMade ran
    refine ⟨_, _, rfl, .rows ?_ ?_⟩ <;> rw [made]
    · rfl
    · exact .group inside rfl
  | distinct =>
    cases ofPure ran
    exact ⟨_, _, rfl, .rows type item⟩
  | take n | skip n =>
    obtain ⟨size, _, ran⟩ := ofBind ran
    cases ofPure ran
    exact ⟨_, _, rfl, .rows type item⟩
  | count =>
    obtain ⟨_, _, ran⟩ := ofBind ran
    obtain ⟨value, made, ran⟩ := ofBind ran
    cases ofPure ran
    have same := scalarMade (ofExcept made)
    exact ⟨_, _, rfl, same ▸ .scalar⟩
  | first orNull =>
    obtain ⟨value, rfl, same⟩ := firstMade ran
    exact ⟨_, _, rfl, type.trans same ▸ .scalar⟩

theorem shapesBeside {ops : List ResultOperator} (inside : ∀ op ∈ ops, op ∈ q.operators)
    (beside : q.Foretells shape o) (ran : yields (ops.foldlM (fun input op => op.run input) o) o') (t : Supply) :
    ∃ shape' t', (ops.foldlM (fun input op => ResultOperator.shape op input) shape : Build Shape).run t = (.ok shape', t') ∧
      q.Foretells shape' o' := by
  induction ops generalizing shape o t with
  | nil =>
    cases ofPure ran
    exact ⟨shape, t, rfl, beside⟩
  | cons op rest ih =>
    rw [List.foldlM_cons] at ran
    obtain ⟨here, later⟩ := List.forall_mem_cons.mp inside
    obtain ⟨left, first, ran⟩ := ofBind ran
    obtain ⟨said, t₁, run, beside⟩ := shapeBeside here beside first t
    obtain ⟨shape', t', rest, beside⟩ := ih later beside ran t₁
    refine ⟨shape', t', ?_, beside⟩
    rw [List.foldlM_cons]
    exact (Build.runThen run).trans rest

end ResultOperator

namespace Query
variable {q : Query} {o : Output}

theorem executeRows (ran : yields q.execute o) : ∃ rows : Rows, rows.shape = .ofItem q.selector ∧
    yields (q.operators.foldlM (fun input op => op.run input) (.rows rows)) o := by
  obtain ⟨_, _, ran⟩ := ofBind ran
  obtain ⟨_, _, ran⟩ := ofBind ran
  obtain ⟨_, _, ran⟩ := ofBind ran
  obtain ⟨_, _, ran⟩ := ofBind ran
  obtain ⟨_, _, ran⟩ := ofBind ran
  obtain ⟨rows, made, ran⟩ := ofBind ran
  exact ⟨rows, (rowsMade (ofExcept made)).1, ran⟩

/-- A query that runs has a description, given from every supply: of the same kind and type as what the run
leaves, and with rows described by the selector itself, or by a reference to the source of the same
grouping. What is left is a value of that type. -/
theorem shapeForetells {s s' : Supply} (ran : q.execute.run s = (.ok o, s')) (t : Supply) :
    ∃ shape t', q.shape.run t = (.ok shape, t') ∧ q.Foretells shape o ∧ shape.ty = o.shape.ty ∧
      shape.ty.accepts o.value = true := by
  obtain ⟨rows, shape, ran⟩ := executeRows ⟨s, s', ran⟩
  have start : q.Foretells (.rows (.ofItem q.selector)) (.rows rows) := by
    refine .rows ?_ ?_ <;> rw [shape]
    exact .selector
  obtain ⟨said, t', run, beside⟩ := ResultOperator.shapesBeside (fun _ => id) start ran t
  exact ⟨said, t', run, beside, beside.ty, beside.ty ▸ o.accepted⟩

/- Two groupings with a cut between them, and the first group. -/
theorem shapeForetellsFirstGroup : ∃ chain q,
    Command.Asks "$.group_by(x => x > 1).take(2).group_by(y => y.key, z => z.key).first()" "[1, 2.5, null]"
      .start chain q ∧
    ∃ o s', q.execute.run .start = (.ok o, s') ∧
      ∀ t, ∃ shape t', q.shape.run t = (.ok shape, t') ∧ q.Foretells shape o ∧ shape.ty = o.shape.ty ∧
        shape.ty.accepts o.value = true := by
  refine Command.asksMeeting (fun _ _ q => (q.execute.run .start).1.isOk) (by decide +kernel)
    fun js chain q document asks meets => ?_
  obtain ⟨o, s', ran⟩ := Build.okRun meets
  exact ⟨o, s', ran, shapeForetells ran⟩

end Query

end SymbolicQuery
