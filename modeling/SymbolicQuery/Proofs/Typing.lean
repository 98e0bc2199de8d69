import SymbolicQuery.Proofs.Construction
import SymbolicQuery.Proofs.Holding

/-! Types of expressions. What a text writes is typed node by node over the types of the parts, and
evaluation keeps to it: a node whose parts have values of their types has one of its own. -/
namespace SymbolicQuery

namespace Expr

/-- A node is typed over its parts. What the leaves may be is left open: the parameters of a
function, or the references to a source. -/
inductive Typed (leaf : Expr → Prop) : Expr → Prop where
  | constant {i t v} (holds : t.Holds v) : Typed leaf (.constant i t v)
  | parameter {i p} (known : leaf (.parameter i p)) : Typed leaf (.parameter i p)
  | reference {i s} (known : leaf (.reference i s)) : Typed leaf (.reference i s)
  | access {i o m} (declared : o.ty.member? m.name = some m) : Typed leaf (.access i o m)
  | getter {i o m} (declared : o.ty.member? m.name = some m) : Typed leaf (.getter i o m)
  | unary {i t op e} (result : op.result? e.ty = some t) : Typed leaf (.unary i t op e)
  | binary {i t op l r} (result : op.result? l.ty r.ty = some t) : Typed leaf (.binary i t op l r)
  | textCall {i method r args} : Typed leaf (.textCall i method r args)
  | convert {i t c e} (scalar : t.Scalar) : Typed leaf (.convert i t c e)
  | construct {i o es} (each : List.Forall₂ (fun m e => m.ty = e.ty) o.members es) :
      Typed leaf (.construct i o o.members es)

def OfParam (p : Param) (n : Expr) : Prop := ∃ i, n = .parameter i p
def OfSource (s : Source) (n : Expr) : Prop := ∃ i, n = .reference i s

def Sound (leaf : Expr → Prop) (e : Expr) : Prop := e.Every fun n => n.Typed leaf ∧ n.NamesOnce

variable {leaf further : Expr → Prop} {e n : Expr} {a : Assignment}

theorem sameTypes {ms : List Member} {es es' : List Expr}
    (each : List.Forall₂ (fun m e => m.ty = e.ty) ms es)
    (same : List.Forall₂ (fun c c' => c'.ty = c.ty) es es') :
    List.Forall₂ (fun m e => m.ty = e.ty) ms es' := by
  induction same generalizing ms with
  | nil =>
    cases each
    exact .nil
  | cons head _ ih =>
    cases each with
    | cons first rest => exact .cons (first.trans head.symm) (ih rest)

theorem Typed.mono (typed : e.Typed leaf) (leaves : ∀ n, leaf n → further n) : e.Typed further := by
  cases typed with
  | constant holds => exact .constant holds
  | parameter known => exact .parameter (leaves _ known)
  | reference known => exact .reference (leaves _ known)
  | access declared => exact .access declared
  | getter declared => exact .getter declared
  | unary result => exact .unary result
  | binary result => exact .binary result
  | textCall => exact .textCall
  | convert scalar => exact .convert scalar
  | construct each => exact .construct each

theorem Typed.rebuilt (typed : e.Typed leaf) (same : Rebuilt (fun c c' => c'.ty = c.ty) e n)
    (leaves : leaf e → further n) : n.Typed further := by
  cases typed with
  | constant holds => cases same with
    | constant => exact .constant holds
  | parameter known => cases same with
    | parameter => exact .parameter (leaves known)
  | reference known => cases same with
    | reference => exact .reference (leaves known)
  | access declared => cases same with
    | access object => exact .access (object.symm ▸ declared)
  | getter declared => cases same with
    | getter object => exact .getter (object.symm ▸ declared)
  | unary result => cases same with
    | unary operand => exact .unary (operand.symm ▸ result)
  | binary result => cases same with
    | binary left right => exact .binary (by rw [left, right]; exact result)
  | textCall => cases same with
    | textCall => exact .textCall
  | convert scalar => cases same with
    | convert => exact .convert scalar
  | construct each => cases same with
    | construct args => exact .construct (sameTypes each args)

theorem Typed.evalHolds {v : Value} (typed : n.Typed leaf) (once : n.NamesOnce)
    (leaves : leaf n → ∀ u, n.eval a = .ok u → n.ty.Holds u)
    (parts : ∀ c ∈ n.parts, ∀ u, c.eval a = .ok u → c.ty.Holds u)
    (h : n.eval a = .ok v) : n.ty.Holds v := by
  cases typed with
  | constant holds =>
    cases h
    exact holds
  | parameter known => exact leaves known v h
  | reference known => exact leaves known v h
  | access declared | getter declared =>
    unfold eval at h
    obtain ⟨u, object, read⟩ := okBind.mp h
    exact Ty.memberHolds declared (parts _ List.mem_cons_self u object) read
  | unary result =>
    unfold eval at h
    obtain ⟨u, operand, applied⟩ := okBind.mp h
    exact Ty.applyUnaryHolds result (parts _ List.mem_cons_self u operand) applied
  | @binary i t op l r result =>
    unfold eval at h
    obtain ⟨x, left, rest⟩ := okBind.mp h
    split at rest
    · rename_i decided
      cases rest
      rw [decided.1] at result
      cases result
      exact .bool
    · split at rest
      · rename_i decided
        cases rest
        rw [decided.1] at result
        cases result
        exact .bool
      · obtain ⟨y, right, applied⟩ := okBind.mp rest
        exact Ty.applyHolds result (parts _ List.mem_cons_self x left)
          (parts _ (List.mem_cons_of_mem _ List.mem_cons_self) y right) applied
  | textCall =>
    unfold eval at h
    obtain ⟨_, _, h⟩ := okBind.mp h
    obtain ⟨_, _, called⟩ := okBind.mp h
    exact Ty.callTextHolds called
  | convert scalar =>
    unfold eval at h
    obtain ⟨_, _, converted⟩ := okBind.mp h
    exact Ty.convertHolds scalar converted
  | @construct i o es each =>
    obtain ⟨fields, rfl, stored⟩ := constructValue h
    refine .object fun m inside v got => ?_
    obtain ⟨k, bound, rfl⟩ := List.mem_iff_getElem.mp inside
    have same := each.length_eq
    have pair : (o.members[k], es[k]) ∈ o.members.zip es :=
      List.mem_iff_getElem.mpr ⟨k, by simp; omega, by simp⟩
    have named : (o.members[k].name, es[k]) ∈ (o.members.map (·.name)).zip es :=
      List.mem_iff_getElem.mpr ⟨k, by simp; omega, by simp⟩
    obtain ⟨u, value, kept⟩ := fieldStored (stored (List.ne_nil_of_mem inside)) once named
    cases got.symm.trans kept
    rw [(List.forall₂_iff_zip.mp each).2 pair]
    exact parts _ (List.getElem_mem _) _ value

theorem Sound.evalHolds (sound : e.Sound leaf)
    (leaves : ∀ n, leaf n → ∀ u, n.eval a = .ok u → n.ty.Holds u)
    {v : Value} (h : e.eval a = .ok v) : e.ty.Holds v := by
  induction e using partsInduction generalizing v with
  | step e ih =>
    exact sound.here.1.evalHolds sound.here.2 (leaves e)
      (fun c inside u value => ih c inside (sound.part inside) value) h

end Expr

end SymbolicQuery
