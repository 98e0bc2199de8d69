import SymbolicQuery.Proofs.Construction

/-! Names that a construction assigns more than once. The object holds what was stored last under a name, while a read
that is folded takes the first argument for the member; so a folded read keeps the meaning exactly where the first
argument and the last content are worth the same. -/
namespace SymbolicQuery

def BindingOf.eval (a : Assignment) : Binding → Except QueryError Value
  | .assign _ value => value.eval a
  | .collect _ items => return .array (← Expr.evalAll a items)

namespace Expr
variable {a : Assignment} {o e : Expr} {m : Member}

def contents : Expr → List Binding
  | .construct _ _ members args => (members.zip args).map fun (m, e) => .assign m e
  | .populate _ _ _ bindings => bindings
  | _ => []

def lastStored? (name : String) (e : Expr) : Option Binding := e.contents.findRev? (·.member.name == name)

theorem bindingsCons {fields : Fields Value} {b : Binding} {bs : List Binding} :
    evalBindings a fields (b :: bs) = (b.eval a >>= fun u => evalBindings a (fields.put b.member.name u) bs) := by
  cases b with
  | assign => rfl
  | collect member items =>
    simp only [evalBindings, BindingOf.eval, bind_assoc, pure_bind]
    rfl

theorem bindingsAppend {fields : Fields Value} {bs cs : List Binding} :
    evalBindings a fields (bs ++ cs) = (evalBindings a fields bs >>= fun before => evalBindings a before cs) := by
  induction bs generalizing fields with
  | nil => rfl
  | cons b bs ih => simp only [List.cons_append, bindingsCons, bind_assoc, ih]

theorem fieldsAsBindings {fields : Fields Value} {ms : List Member} {es : List Expr} :
    evalFields a fields (ms.map (·.name)) es = evalBindings a fields ((ms.zip es).map fun (m, e) => .assign m e) := by
  induction ms generalizing fields es with
  | nil => cases es <;> rfl
  | cons m ms ih =>
    cases es with
    | nil => rfl
    | cons e es =>
      simp only [List.map_cons, List.zip_cons_cons, evalFields, evalBindings]
      exact congrArg _ (funext fun u => ih)

theorem bindingLast {fields after : Fields Value} {bs : List Binding} {b : Binding}
    (h : evalBindings a fields bs = .ok after) (inside : b ∈ bs) :
    ∃ last u, bs.findRev? (·.member.name == b.member.name) = some last ∧ last.eval a = .ok u ∧
      after.get? b.member.name = some u := by
  rw [List.findRev?_eq_find?_reverse]
  cases found : bs.reverse.find? (·.member.name == b.member.name) with
  | none => simpa using List.find?_eq_none.mp found b (List.mem_reverse.mpr inside)
  | some last =>
    obtain ⟨same, later, before, split, others⟩ := List.find?_eq_some_iff_append.mp found
    have order : bs = before.reverse ++ last :: later.reverse := by
      rw [← List.reverse_reverse bs, split]
      simp
    rw [order, bindingsAppend] at h
    obtain ⟨earlier, _, h⟩ := okBind.mp h
    rw [bindingsCons] at h
    obtain ⟨u, value, h⟩ := okBind.mp h
    have other : b.member.name ∉ later.reverse.map (·.member.name) := by
      intro member
      obtain ⟨c, again, equal⟩ := List.mem_map.mp member
      simpa [equal] using others c (List.mem_reverse.mp again)
    refine ⟨last, u, rfl, value, ?_⟩
    rw [bindingKept h other, Fields.getPut, if_pos (eq_of_beq same)]

theorem bindingEvaluates {fields after : Fields Value} {bs : List Binding} {b : Binding}
    (h : evalBindings a fields bs = .ok after) (inside : b ∈ bs) : ∃ u, b.eval a = .ok u := by
  obtain ⟨before, later, rfl⟩ := List.append_of_mem inside
  rw [bindingsAppend] at h
  obtain ⟨_, _, h⟩ := okBind.mp h
  rw [bindingsCons] at h
  obtain ⟨u, value, _⟩ := okBind.mp h
  exact ⟨u, value⟩

theorem argumentContents {fields : Fields Value} (folds : o.argumentFor? m = some e)
    (evaluates : o.eval a = .ok (.object fields)) :
    .assign m e ∈ o.contents ∧ ∃ under, evalBindings a under o.contents = .ok fields := by
  rcases argumentPlace folds with ⟨i, t, ms, es, rfl, inside⟩ | ⟨i, t, base, bs, rfl, inside⟩
  · obtain ⟨_, same, stores⟩ := constructValue evaluates
    cases same
    refine ⟨List.mem_map.mpr ⟨(m, e), inside, rfl⟩, [], ?_⟩
    exact fieldsAsBindings.symm.trans (stores (List.ne_nil_of_mem (List.of_mem_zip inside).1))
  · obtain ⟨under, _, _, stores, same⟩ := populateValue evaluates
    cases same
    exact ⟨inside, under, stores⟩

/-- Folding a read keeps its meaning exactly if the first argument for the member has the value of the content that is
stored last under the member's name, which is the one that the object holds. -/
theorem foldedReadIff {o e : Expr} {m : Member} {a : Assignment} {fields : Fields Value}
    (evaluates : o.eval a = .ok (.object fields)) (folds : o.argumentFor? m = some e) :
    ∃ last u w, o.lastStored? m.name = some last ∧ last.eval a = .ok u ∧ fields.get? m.name = some u ∧
      e.eval a = .ok w ∧ (fields.get? m.name = some w ↔ last.eval a = e.eval a) := by
  obtain ⟨inside, under, stores⟩ := argumentContents folds evaluates
  obtain ⟨last, u, found, content, held⟩ := bindingLast stores inside
  obtain ⟨w, value⟩ := bindingEvaluates stores inside
  have value : e.eval a = .ok w := value
  refine ⟨last, u, w, found, content, held, value, ?_⟩
  rw [content, value]
  exact ⟨fun same => congrArg _ (Option.some.inj (held.symm.trans same)),
    fun same => held.trans (congrArg _ (Except.ok.inj same))⟩

/- A list of tags that is assigned and then collected anew. -/
theorem foldedReadIffOfTags :
    let tags : Member := ⟨"tags", "Row", .sequence .int, .property⟩
    let type : ObjectType := ⟨"Row", [tags], false⟩
    let assigned := Expr.constant 1 (.sequence .int) (.array [.integer 1])
    let o := Expr.populate 3 type (.construct 0 type [] [])
      [.assign tags assigned, .collect tags [.constant 2 .int (.integer 2)]]
    let fields : Fields Value := [("tags", .array [.integer 2])]
    o.eval .empty = .ok (.object fields) ∧ o.argumentFor? tags = some assigned ∧
      ∃ last u w, o.lastStored? tags.name = some last ∧ last.eval .empty = .ok u ∧
        fields.get? tags.name = some u ∧ assigned.eval .empty = .ok w ∧
        (fields.get? tags.name = some w ↔ last.eval .empty = assigned.eval .empty) := by
  intro tags type assigned o fields
  have evaluates : o.eval .empty = .ok (.object fields) := rfl
  have folds : o.argumentFor? tags = some assigned := by
    simp [o, argumentFor?]
  exact ⟨evaluates, folds, foldedReadIff evaluates folds⟩

/- A shape may repeat a name: the read of the one member gives the first argument, the object holds the second. -/
theorem foldedReadOverwritten :
    let first := Expr.constant 0 .int (.integer 1)
    let second := Expr.constant 1 .int (.integer 2)
    ∃ (o : Expr) (s : Supply) (m : Member) (fields : Fields Value),
      (Build.anonymous [("a", first), ("a", second)]).run ⟨2, 0, 0⟩ = (o, s) ∧ o.ty.member? "a" = some m ∧
      o.eval .empty = .ok (.object fields) ∧ o.argumentFor? m = some first ∧
      ¬ ∃ w, first.eval .empty = .ok w ∧ fields.get? m.name = some w := by
  intro first second
  refine ⟨_, _, ⟨"a", _, .int, .property⟩, [("a", .integer 2)], rfl, rfl, rfl, ?_, ?_⟩
  · simp [argumentFor?, ObjectOf.ofShape, ObjectOf.declare, first, ty]
  · rintro ⟨w, value, held⟩
    cases value
    exact absurd held (by decide)

end Expr

end SymbolicQuery
