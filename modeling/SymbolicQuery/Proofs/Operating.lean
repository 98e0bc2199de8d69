import SymbolicQuery.Proofs.Running

/-! Operators on rows that an expression describes. Each leaves rows that are described in turn, those
of a grouping by a source of its own; a count or a first row leaves a single value, which no
operator runs on. -/
namespace SymbolicQuery
open Results QueryError SymbolicQuery.Expr

structure Rows.Over (s : Source) (rows : Rows) : Prop where
  type : rows.shape.itemType = rows.shape.item.ty
  sound : rows.shape.item.Sound (OfSource s)
  described : ∀ v ∈ rows.items, ∃ x, s.itemType.Holds x ∧
    rows.shape.item.eval (Assignment.at s x) = .ok v

namespace Value

theorem addToGroupHolds {K E : Value → Prop} {groups : List Group} {k e : Value}
    (each : ∀ g ∈ groups, K g.1 ∧ ∀ w ∈ g.2, E w) (key : K k) (element : E e) :
    ∀ g ∈ addToGroup groups k e, K g.1 ∧ ∀ w ∈ g.2, E w := by
  induction groups with
  | nil =>
    intro g inside
    cases List.mem_singleton.mp inside
    exact ⟨key, fun w member => List.mem_singleton.mp member ▸ element⟩
  | cons g rest ih =>
    obtain ⟨here, later⟩ := List.forall_mem_cons.mp each
    unfold addToGroup
    split
    · refine List.forall_mem_cons.mpr ⟨⟨here.1, fun w inside => ?_⟩, later⟩
      rcases List.mem_append.mp inside with before | last
      · exact here.2 w before
      · exact List.mem_singleton.mp last ▸ element
    · exact List.forall_mem_cons.mpr ⟨here, ih later⟩

theorem groupHolds {K E : Value → Prop} {pairs : List (Value × Value)}
    (each : ∀ p ∈ pairs, K p.1 ∧ E p.2) : ∀ g ∈ group pairs, K g.1 ∧ ∀ w ∈ g.2, E w := by
  suffices grows : ∀ groups : List Group, (∀ g ∈ groups, K g.1 ∧ ∀ w ∈ g.2, E w) →
      ∀ g ∈ pairs.foldl (fun groups pair => addToGroup groups pair.1 pair.2) groups,
        K g.1 ∧ ∀ w ∈ g.2, E w from grows [] (fun _ none => by cases none)
  induction pairs with
  | nil => exact fun groups known => known
  | cons p rest ih =>
    obtain ⟨here, later⟩ := List.forall_mem_cons.mp each
    exact fun groups known => ih later _ (addToGroupHolds known here.1 here.2)

end Value

theorem Output.accepted (o : Output) : o.shape.ty.accepts o.value = true := by
  cases o with
  | rows r =>
    change (Ty.sequence r.shape.itemType).accepts (.array r.items) = true
    rw [Ty.accepts]
    exact List.all_eq_true.mpr r.accepted
  | scalar value => exact value.accepted

theorem rowsMade {shape : RowsShape} {items : List Value} {rows : Rows} (h : Rows.make shape items = .ok rows) :
    rows.shape = shape ∧ rows.items = items := by
  unfold Rows.make at h
  split at h
  · cases h
  · cases h
    exact ⟨rfl, rfl⟩

theorem rowsExpects {shape : RowsShape} {items : List Value} {E : QueryError → Prop}
    (accepted : ∀ v ∈ items, shape.itemType.accepts v = true) :
    Expects (Rows.make shape items) (fun rows => rows.shape = shape ∧ rows.items = items) E := by
  refine ⟨fun rows => rowsMade, fun e refused => ?_⟩
  unfold Rows.make at refused
  split at refused
  · rename_i v found
    have other := List.find?_some found
    rw [accepted v (List.mem_of_find?_eq_some found)] at other
    cases other
  · cases refused

theorem scalarExpects {t : Ty} {v : Value} (accepted : t.accepts v = true) {E : QueryError → Prop} :
    Expects (Scalar.make t v) (fun _ => True) E := by
  unfold Scalar.make
  rw [dif_pos accepted]
  exact expectsOk trivial

namespace ResultOperator
variable {s u t : Source} {rows : Rows} {op : ResultOperator}

theorem keepOver {kept : List Value} {among : kept.Sublist rows.items} (upon : rows.Over s) :
    (rows.keep kept among).Over s :=
  ⟨upon.type, upon.sound, fun v inside => upon.described v (among.subset inside)⟩

section Errors
variable {E : QueryError → Prop}

theorem countExpects {name : String} {n : Expr} (counted : Expects n.evalClosed (fun _ => True) E)
    (other : ∀ kind, E (.mismatch (.count name) Ty.int.text kind)) :
    Expects (countOf name n) (fun _ => True) E := by
  refine expectsBind counted fun v _ => ?_
  split
  · exact expectsOk trivial
  · exact expectsError (other _)

theorem groupRowsExpects {key element : Expr} {K L : Value → Prop}
    (mistyped : ∀ site expected actual, E (.mismatch (.groupedItem Stage.group.name site) expected actual))
    (refused : ∀ e, e = key ∨ e = element → ∀ err, fails (rows.shape.item.unresolve e) err → E err)
    (keys : ∀ f, Query.FunctionFrom rows.shape.item key f → ∀ v ∈ rows.items, Expects (f.call [v]) K E)
    (elements : ∀ f, Query.FunctionFrom rows.shape.item element f → ∀ v ∈ rows.items,
      Expects (f.call [v]) L E) :
    Ends (groupRows rows key element) (fun groups => ∀ g ∈ groups, K g.1 ∧ ∀ w ∈ g.2, L w) E := by
  have made : ∀ {e}, e = key ∨ e = element →
      Ends (rows.shape.item.unresolve e) (fun l => yields (rows.shape.item.unresolve e) l) E :=
    fun either => ⟨fun _ made => made, refused _ either⟩
  refine endsBind (endsEnsure fun _ => mistyped _ _ _) fun _ _ =>
    endsBind (made (.inl rfl)) fun kl keyMade => endsBind (endsExcept (Query.closeExpects keyMade)) fun kf keyFrom =>
    endsBind (made (.inr rfl)) fun el elementMade =>
    endsBind (endsExcept (Query.closeExpects elementMade)) fun ef elementFrom =>
    endsBind (endsMap (R := fun _ pair => K pair.1 ∧ L pair.2) fun v inside => ?_) fun pairs known => endsPure ?_
  · exact endsBind (endsExcept (keys kf keyFrom v inside)) fun k kept =>
      endsBind (endsExcept (elements ef elementFrom v inside)) fun e kept' => endsPure ⟨kept, kept'⟩
  · refine Value.groupHolds fun pair inside => ?_
    obtain ⟨v, _, kept⟩ := partFrom known inside
    exact kept

end Errors

theorem countOther {name : String} {n : Expr} : Expects (countOf name n) (fun _ => True) Other :=
  countExpects (evalPlain n) fun _ => not_false

theorem groupRowsEnds {key element : Expr} (upon : rows.Over s) (keySound : key.Sound (OfSource s))
    (elementSound : element.Sound (OfSource s)) :
    Ends (groupRows rows key element)
      (fun groups => ∀ g ∈ groups, key.ty.Holds g.1 ∧ ∀ w ∈ g.2, element.ty.Holds w) Other := by
  have calls : ∀ {e f}, e.Sound (OfSource s) → Query.FunctionFrom rows.shape.item e f → ∀ v ∈ rows.items,
      Expects (f.call [v]) (fun u => e.ty.Holds u) Other := by
    intro e f sound made v inside
    obtain ⟨x, holds, value⟩ := upon.described v inside
    obtain ⟨p, fits⟩ := made.fits upon.sound sound holds value
    exact fits.call
  exact groupRowsExpects (fun _ _ _ => not_false) (fun e _ => unresolveUnchecked.2)
    (fun f => calls keySound) (fun f => calls elementSound)

theorem Leads.run (leads : op.Leads s u) (upon : rows.Over s) :
    Ends (op.run (.rows rows)) (fun o => ∃ rows', o = .rows rows' ∧ rows'.Over u) Other := by
  cases leads with
  | @group name id key element keySound elementSound =>
    refine endsKnown rfl (endsBind (groupRowsEnds upon keySound elementSound) fun groups holds => ?_)
    refine endsBind referenceEnds fun n ofSource =>
      endsBind (endsExcept (rowsExpects fun v inside => ?_)) fun rows' made => ?_
    · obtain ⟨g, member, rfl⟩ := List.mem_map.mp inside
      obtain ⟨i, rfl⟩ := ofSource
      exact (Ty.Holds.grouping (holds g member).1 (holds g member).2).accepts
    · obtain ⟨shape, items⟩ := made
      refine endsPure ⟨rows', rfl, ?_, ?_, fun v inside => ?_⟩
      · rw [shape]
        rfl
      · rw [shape]
        exact ofSourceSound ofSource
      · rw [items] at inside
        obtain ⟨g, member, rfl⟩ := List.mem_map.mp inside
        refine ⟨g.toValue, .grouping (holds g member).1 (holds g member).2, ?_⟩
        rw [shape]
        exact referenceEval ofSource
  | distinct => exact endsKnown rfl (endsPure ⟨_, rfl, keepOver upon⟩)
  | take | skip =>
    exact endsBind (endsExcept countOther) fun size _ => endsKnown rfl (endsPure ⟨_, rfl, keepOver upon⟩)

theorem LeadAll.run {ops : List ResultOperator} (all : LeadAll s ops t) (upon : rows.Over s) :
    Ends (ops.foldlM (fun input op => op.run input) (.rows rows))
      (fun o => ∃ rows', o = .rows rows' ∧ rows'.Over t) Other := by
  induction all generalizing rows with
  | nil => exact endsPure ⟨rows, rfl, upon⟩
  | cons leads _ ih =>
    rw [List.foldlM_cons]
    refine endsBind (leads.run upon) ?_
    intro o left
    obtain ⟨rows', rfl, upon'⟩ := left
    exact ih upon'

theorem IsScalar.run (scalar : op.IsScalar) :
    Ends (op.run (.rows rows)) (fun o => ∃ value, o = .scalar value) Other := by
  cases op with
  | count =>
    refine endsBind (endsExcept (P := fun _ => True) (expectsOk trivial)) fun _ _ =>
      endsBind (endsExcept (scalarExpects rfl)) fun value _ => endsPure ⟨value, rfl⟩
  | first orNull =>
    refine endsKnown rfl ?_
    split
    · rename_i v found
      have accepted := rows.accepted v (List.mem_of_head? found)
      exact endsBind (endsExcept (scalarExpects accepted)) fun value _ => endsPure ⟨value, rfl⟩
    · exact endsBind (endsEnsure fun _ => not_false) fun _ _ =>
        endsBind (endsExcept (scalarExpects (Ty.acceptsNull _))) fun value _ => endsPure ⟨value, rfl⟩
  | _ => exact scalar.elim

theorem scalarRun {value : Scalar} : Ends (op.run (.scalar value)) (fun _ => False) Other := by
  cases op with
  | take | skip =>
    exact endsBind (endsExcept countOther) fun size _ =>
      endsBind (P := fun _ => False) (endsExcept (expectsError not_false)) fun _ none => none.elim
  | _ => exact endsBind (P := fun _ => False) (endsExcept (expectsError not_false)) fun _ none => none.elim

theorem scalarRuns {value : Scalar} {ops : List ResultOperator} :
    Ends (ops.foldlM (fun input op => op.run input) (.scalar value))
      (fun o => o = .scalar value) Other := by
  cases ops with
  | nil => exact endsPure rfl
  | cons op rest =>
    rw [List.foldlM_cons]
    exact endsBind scalarRun fun _ none => none.elim

end ResultOperator

end SymbolicQuery
