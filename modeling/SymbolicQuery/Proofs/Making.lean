import SymbolicQuery.Proofs.Written

/-! Expressions that are made by the functions that check types. What these refuse never stands in an expression that
was made: bindings follow a construction of their own type, and every member is given an expression of its type. -/
namespace SymbolicQuery
open Results

namespace Results

theorem ofForM {ε α : Type} {m : Type → Type} [Monad m] [Results m] {f : α → ExceptT ε m Unit} {as : List α} {u : Unit}
    (h : yields (as.forM f) u) : ∀ a ∈ as, ∃ u, yields (f a) u := by
  induction as with
  | nil => intro a inside; cases inside
  | cons b as ih =>
    obtain ⟨_, head, tail⟩ := ofBind h
    exact List.forall_mem_cons.mpr ⟨⟨_, head⟩, ih tail⟩

end Results

namespace Expr

inductive Made : Expr → Prop where
  | constant {v t e} (made : yields (Build.constant v t) e) : Made e
  | integer {n e} (made : yields (Build.integer n) e) : Made e
  | float {x e} (made : yields (Build.float x) e) : Made e
  | string {s e} (made : yields (Build.string s) e) : Made e
  | boolean {b e} (made : yields (Build.boolean b) e) : Made e
  | null {e} (made : yields Build.null e) : Made e
  | parameter {p e} (made : yields (Build.parameter p) e) : Made e
  | reference {s e} (made : yields (Build.reference s) e) : Made e
  | access {o m e} (object : Made o) (made : yields (Build.access o m) e) : Made e
  | getter {o m e} (object : Made o) (made : yields (Build.getter o m) e) : Made e
  | unary {op o e} (operand : Made o) (made : yields (Build.unary op o) e) : Made e
  | binary {op l r e} (left : Made l) (right : Made r) (made : yields (Build.binary op l r) e) : Made e
  | textCall {r method args e} (receiver : Made r) (each : ∀ c ∈ args, Made c)
      (made : yields (Build.textCall r method args) e) : Made e
  | stageCall {o stage args t e} (input : Made o) (each : ∀ c ∈ args, Made c)
      (made : yields (Build.stageCall o stage args t) e) : Made e
  | convert {checked o t e} (operand : Made o) (made : yields (Build.convert checked o t) e) : Made e
  | construct {t ms es e} (each : ∀ c ∈ es, Made c) (made : yields (Build.construct t ms es) e) : Made e
  | anonymous {fields e} (each : ∀ f ∈ fields, Made f.2) (made : yields (Build.anonymous fields) e) : Made e
  | populate {o bs e} (base : Made o) (each : ∀ c ∈ bs.flatMap BindingOf.parts, Made c)
      (made : yields (Build.populate o bs) e) : Made e
  | lambda {l : Lambda} {e} (body : Made l.body) (made : yields l.toExpr e) : Made e

/-- Whether a construction gives each member what may be assigned to it, and bindings follow a construction of their type. -/
def Fitting : Expr → Prop
  | .construct _ _ ms es => ∀ m e, (m, e) ∈ ms.zip es → m.ty.assignable e.ty = true
  | .populate _ t base bs =>
    (∃ j ms es, base = .construct j t ms es) ∧ ∀ m e, .assign m e ∈ bs → m.ty.assignable e.ty = true
  | _ => True

end Expr

namespace Build
open SymbolicQuery.Expr
variable {e : Expr}

theorem assignmentChecked {m : Member} {u : Unit} (h : yields (checkAssignment m e) u) : m.ty.assignable e.ty = true :=
  ofEnsure h

theorem constructYields {t : ObjectType} {ms : List Member} {es : List Expr} (h : yields (construct t ms es) e) :
    ∃ i, e = .construct i t ms es ∧ e.Fitting := by
  unfold construct at h
  split at h
  · rename_i empty
    obtain ⟨_, _, h⟩ := ofBind h
    obtain ⟨_, _, h⟩ := ofBind h
    obtain ⟨i, _, last⟩ := ofBind h
    cases ofPure last
    refine ⟨i, rfl, fun m c inside => ?_⟩
    rw [List.isEmpty_iff.mp empty] at inside
    cases inside
  · obtain ⟨_, _, h⟩ := ofBind h
    obtain ⟨_, checked, h⟩ := ofBind h
    obtain ⟨i, _, last⟩ := ofBind h
    cases ofPure last
    refine ⟨i, rfl, fun m c inside => ?_⟩
    obtain ⟨_, member⟩ := ofForM checked (m, c) inside
    obtain ⟨_, _, member⟩ := ofBind member
    exact assignmentChecked member

theorem anonymousYields {fields : List (String × Expr)} (h : yields (anonymous fields) e) :
    e.Fitting ∧ e.parts = fields.map (·.2) := by
  obtain ⟨i, _, last⟩ := ofBind h
  cases ofPure last
  refine ⟨fun m c inside => ?_, rfl⟩
  have same : ∀ f ∈ fields, f.2.ty.assignable f.2.ty = true := fun f _ => Ty.assignableSelf _
  simp only [ObjectOf.ofShape, ObjectOf.declare, List.map_map, List.zip_map'] at inside
  obtain ⟨f, member, equal⟩ := List.mem_map.mp inside
  cases equal
  exact same f member

theorem bindingChecked {t : ObjectType} {m : Member} {u : Unit} (h : yields (checkBinding t (.assign m e)) u) :
    m.ty.assignable e.ty = true := by
  obtain ⟨_, _, h⟩ := ofBind h
  exact assignmentChecked h

theorem populateYields {base : Expr} {bs : List Binding} (h : yields (populate base bs) e) :
    ∃ i t, e = .populate i t base bs ∧ e.Fitting := by
  unfold populate at h
  split at h
  · rename_i j t ms es
    obtain ⟨_, checked, h⟩ := ofBind h
    obtain ⟨i, _, last⟩ := ofBind h
    cases ofPure last
    refine ⟨i, t, rfl, ⟨j, ms, es, rfl⟩, fun m c inside => ?_⟩
    obtain ⟨_, member⟩ := ofForM checked _ inside
    exact bindingChecked member
  · exact (notThrow h).elim

theorem freshlyYields {node : Nat → Expr} (h : yields (m := Fresh) (return node (← freshNode)) e) : ∃ i, e = node i := by
  obtain ⟨i, _, last⟩ := ofBind h
  exact ⟨i, (ofPure last).symm⟩

theorem constantYields {v : Value} {t : Ty} (h : yields (constant v t) e) : ∃ i, e = .constant i t v := by
  obtain ⟨_, _, h⟩ := ofBind h
  exact freshYields h

theorem accessYields {o : Expr} {m : Member} (h : yields (access o m) e) : ∃ i, e = .access i o m := by
  obtain ⟨_, _, h⟩ := ofBind h
  obtain ⟨_, _, h⟩ := ofBind h
  exact freshYields h

theorem stageCallYields {o : Expr} {stage : Stage} {args : List Expr} {t : Ty} (h : yields (stageCall o stage args t) e) :
    ∃ i, e = .stageCall i t stage o args := by
  obtain ⟨_, _, h⟩ := ofBind h
  exact freshYields h

end Build

namespace Expr
open Build

theorem everyOf {P : Expr → Prop} {e : Expr} {cs : List Expr} (here : P e) (parts : e.parts = cs)
    (each : ∀ c ∈ cs, c.Every P) : e.Every P :=
  everyIff.mpr ⟨here, parts ▸ each⟩

theorem Made.fitting {e : Expr} (made : e.Made) : e.Every Fitting := by
  have leaf {e : Expr} (here : e.Fitting) (none : e.parts = []) : e.Every Fitting :=
    everyOf here none fun _ inside => by cases inside
  have one {e o : Expr} (here : e.Fitting) (only : e.parts = [o]) (below : o.Every Fitting) : e.Every Fitting :=
    everyOf here only fun c inside => List.mem_singleton.mp inside ▸ below
  induction made with
  | constant made =>
    obtain ⟨i, rfl⟩ := constantYields made
    exact leaf trivial rfl
  | integer made | float made | string made | boolean made | null made | parameter made | reference made =>
    obtain ⟨i, rfl⟩ := freshlyYields made
    exact leaf trivial rfl
  | access object made ih =>
    obtain ⟨i, rfl⟩ := accessYields made
    exact one trivial rfl ih
  | getter object made ih =>
    obtain ⟨i, rfl⟩ := getterYields made
    exact one trivial rfl ih
  | unary operand made ih =>
    obtain ⟨i, t, _, rfl⟩ := unaryYields made
    exact one trivial rfl ih
  | binary left right made ihl ihr =>
    obtain ⟨i, t, _, rfl⟩ := binaryYields made
    exact everyOf trivial rfl (List.forall_mem_cons.mpr ⟨ihl, List.forall_mem_singleton.mpr ihr⟩)
  | textCall receiver each made ih ihs =>
    obtain ⟨i, rfl⟩ := textCallYields made
    exact everyOf trivial rfl (List.forall_mem_cons.mpr ⟨ih, ihs⟩)
  | stageCall input each made ih ihs =>
    obtain ⟨i, rfl⟩ := stageCallYields made
    exact everyOf trivial rfl (List.forall_mem_cons.mpr ⟨ih, ihs⟩)
  | convert operand made ih =>
    obtain ⟨i, rfl⟩ := convertYields made
    exact one trivial rfl ih
  | construct each made ihs =>
    obtain ⟨i, rfl, fits⟩ := constructYields made
    exact everyOf fits rfl ihs
  | anonymous each made ihs =>
    obtain ⟨fits, parts⟩ := anonymousYields made
    refine everyOf fits parts fun c inside => ?_
    obtain ⟨f, member, rfl⟩ := List.mem_map.mp inside
    exact ihs f member
  | populate base each made ih ihs =>
    obtain ⟨i, t, rfl, fits⟩ := populateYields made
    exact everyOf fits rfl (List.forall_mem_cons.mpr ⟨ih, ihs⟩)
  | lambda body made ih =>
    obtain ⟨i, rfl⟩ := freshlyYields made
    exact one trivial rfl ih

end Expr

end SymbolicQuery
