import SymbolicQuery.Eval
import SymbolicQuery.Proofs.Parts
import SymbolicQuery.Proofs.Result
import SymbolicQuery.Resolution

/-! What a construction stores. As long as no member name is assigned twice, reading a member of the
constructed value gives the value of the argument for it. -/
namespace SymbolicQuery.Expr
variable {a : Assignment}

def assignedNames : Expr → List String
  | .construct _ _ members _ => members.map (·.name)
  | .populate _ _ base bindings => base.assignedNames ++ bindings.map (·.member.name)
  | _ => []

def NamesOnce (e : Expr) : Prop := e.assignedNames.Nodup
instance (e : Expr) : Decidable e.NamesOnce := inferInstanceAs (Decidable e.assignedNames.Nodup)

def storedNames : Expr → List String
  | .construct _ _ members _ => members.map (·.name)
  | .populate _ _ _ bindings => bindings.map (·.member.name)
  | _ => []

def StoresOnce (e : Expr) : Prop := e.storedNames.Nodup

theorem NamesOnce.stores {e : Expr} (once : e.NamesOnce) : e.StoresOnce := by
  cases e with
  | construct => exact once
  | populate => exact (List.nodup_append.mp once).2.1
  | _ => exact List.nodup_nil

theorem fieldKept {fields after : Fields Value} {names : List String} {es : List Expr} {name : String}
    (h : evalFields a fields names es = .ok after) (other : name ∉ names) :
    after.get? name = fields.get? name := by
  induction names generalizing fields es with
  | nil => cases es <;> cases h <;> rfl
  | cons n names ih =>
    cases es with
    | nil => cases h; rfl
    | cons e es =>
      unfold evalFields at h
      obtain ⟨v, _, h⟩ := okBind.mp h
      obtain ⟨different, other⟩ : name ≠ _ ∧ name ∉ _ := by simpa using other
      rw [ih h other, Fields.getPut, if_neg (Ne.symm different)]

theorem fieldStored {fields after : Fields Value} {names : List String} {es : List Expr} {name : String}
    {e : Expr} (h : evalFields a fields names es = .ok after) (once : names.Nodup)
    (inside : (name, e) ∈ names.zip es) :
    ∃ v, e.eval a = .ok v ∧ after.get? name = some v := by
  induction names generalizing fields es with
  | nil => cases inside
  | cons n names ih =>
    cases es with
    | nil => cases inside
    | cons e' es =>
      unfold evalFields at h
      obtain ⟨v, value, rest⟩ := okBind.mp h
      obtain ⟨fresh, once⟩ := List.nodup_cons.mp once
      rcases List.mem_cons.mp inside with same | inside
      · cases same
        exact ⟨v, value, by rw [fieldKept rest fresh, Fields.getPut, if_pos rfl]⟩
      · exact ih rest once inside

theorem bindingKept {fields after : Fields Value} {bs : List Binding} {name : String}
    (h : evalBindings a fields bs = .ok after) (other : name ∉ bs.map (·.member.name)) :
    after.get? name = fields.get? name := by
  induction bs generalizing fields with
  | nil => cases h; rfl
  | cons b bs ih =>
    obtain ⟨different, absent⟩ := not_or.mp (fun here => other (List.mem_cons.mpr here))
    cases b with
    | assign m e =>
      unfold evalBindings at h
      obtain ⟨v, _, rest⟩ := okBind.mp h
      rw [ih rest absent, Fields.getPut]
      exact if_neg (Ne.symm different)
    | collect m es =>
      unfold evalBindings at h
      obtain ⟨vs, _, rest⟩ := okBind.mp h
      rw [ih rest absent, Fields.getPut]
      exact if_neg (Ne.symm different)

theorem bindingStored {fields after : Fields Value} {bs : List Binding} {m : Member} {e : Expr}
    (h : evalBindings a fields bs = .ok after) (once : (bs.map (·.member.name)).Nodup)
    (inside : .assign m e ∈ bs) : ∃ v, e.eval a = .ok v ∧ after.get? m.name = some v := by
  induction bs generalizing fields with
  | nil => cases inside
  | cons b bs ih =>
    obtain ⟨fresh, onceAfter⟩ := List.nodup_cons.mp once
    rcases List.mem_cons.mp inside with rfl | later
    · unfold evalBindings at h
      obtain ⟨v, value, rest⟩ := okBind.mp h
      have got := Fields.getPut fields m.name m.name v
      rw [if_pos rfl] at got
      exact ⟨v, value, (bindingKept rest fresh).trans got⟩
    · cases b with
      | assign m' e' =>
        unfold evalBindings at h
        obtain ⟨_, _, rest⟩ := okBind.mp h
        exact ih rest onceAfter later
      | collect m' es =>
        unfold evalBindings at h
        obtain ⟨_, _, rest⟩ := okBind.mp h
        exact ih rest onceAfter later

theorem readObject {fields : Fields Value} {name : String} {w : Value}
    (stored : fields.get? name = some w) : (Value.object fields).read name = .ok w := by
  simp only [Value.read, stored, Option.getD_some]

theorem constructValue {i : Nat} {t : ObjectType} {ms : List Member} {es : List Expr} {v : Value}
    (h : (Expr.construct i t ms es).eval a = .ok v) : ∃ fields, v = .object fields ∧
      (ms ≠ [] → evalFields a [] (ms.map (·.name)) es = .ok fields) := by
  unfold eval at h
  dsimp only at h
  split at h
  · rename_i empty
    cases h
    exact ⟨_, rfl, fun some => absurd (List.isEmpty_iff.mp empty.1) some⟩
  · obtain ⟨fields, stored, last⟩ := okBind.mp h
    cases last
    refine ⟨fields, rfl, fun some => ?_⟩
    rwa [if_neg (by simpa using some)] at stored

theorem constructReads {i : Nat} {t : ObjectType} {ms : List Member} {es : List Expr} {v : Value}
    {m : Member} {e : Expr} (h : (Expr.construct i t ms es).eval a = .ok v)
    (once : (ms.map (·.name)).Nodup) (inside : (m, e) ∈ ms.zip es) :
    ∃ w, e.eval a = .ok w ∧ v.read m.name = .ok w := by
  obtain ⟨fields, rfl, stored⟩ := constructValue h
  have some : ms ≠ [] := List.ne_nil_of_mem (List.of_mem_zip inside).1
  have named : (m.name, e) ∈ (ms.map (·.name)).zip es := by
    rw [← List.map_id es, List.zip_map]
    exact List.mem_map.mpr ⟨(m, e), inside, rfl⟩
  obtain ⟨w, value, got⟩ := fieldStored (stored some) once named
  exact ⟨w, value, readObject got⟩

theorem populateValue {i : Nat} {t : ObjectType} {base : Expr} {bs : List Binding} {v : Value}
    (h : (Expr.populate i t base bs).eval a = .ok v) : ∃ fields after,
      base.eval a = .ok (.object fields) ∧ evalBindings a fields bs = .ok after ∧ v = .object after := by
  unfold eval at h
  obtain ⟨b, value, h⟩ := okBind.mp h
  split at h
  · obtain ⟨after, stored, last⟩ := okBind.mp h
    cases last
    exact ⟨_, after, value, stored, rfl⟩
  · cases h

theorem populateReads {i : Nat} {t : ObjectType} {base : Expr} {bs : List Binding} {v : Value}
    {m : Member} {e : Expr} (h : (Expr.populate i t base bs).eval a = .ok v)
    (once : (bs.map (·.member.name)).Nodup) (inside : .assign m e ∈ bs) :
    ∃ w, e.eval a = .ok w ∧ v.read m.name = .ok w := by
  obtain ⟨fields, after, _, stored, rfl⟩ := populateValue h
  obtain ⟨w, value, got⟩ := bindingStored stored once inside
  exact ⟨w, value, readObject got⟩

theorem baseReads {i : Nat} {t : ObjectType} {base : Expr} {bs : List Binding} {v u : Value}
    {name : String} (h : (Expr.populate i t base bs).eval a = .ok v)
    (once : (Expr.populate i t base bs).NamesOnce) (value : base.eval a = .ok u)
    (inside : name ∈ base.assignedNames) : v.read name = u.read name := by
  obtain ⟨fields, after, under, stored, rfl⟩ := populateValue h
  cases value.symm.trans under
  have other : name ∉ bs.map (·.member.name) := fun member =>
    (List.nodup_append.mp once).2.2 name inside name member rfl
  simp only [Value.read, bindingKept stored other]

theorem argumentPlace {o e : Expr} {m : Member} (found : o.argumentFor? m = some e) :
    (∃ i t ms es, o = .construct i t ms es ∧ (m, e) ∈ ms.zip es) ∨
      ∃ i t base bs, o = .populate i t base bs ∧ .assign m e ∈ bs := by
  cases o with
  | construct i t ms es =>
    obtain ⟨⟨m', e'⟩, first, last⟩ := Option.map_eq_some_iff.mp found
    have same := List.find?_some first
    cases last
    cases eq_of_beq same
    exact .inl ⟨i, t, ms, es, rfl, List.mem_of_find?_eq_some first⟩
  | populate i t base bs =>
    obtain ⟨b, inside, taken⟩ := List.exists_of_findSome?_eq_some found
    cases b with
    | assign m' e' =>
      dsimp only at taken
      split at taken
      · rename_i same
        cases taken
        subst same
        exact .inr ⟨i, t, base, bs, rfl, inside⟩
      · cases taken
    | collect => cases taken
  | _ => cases found

theorem argumentReads {o e : Expr} {m : Member} {v : Value} (found : o.argumentFor? m = some e)
    (once : o.StoresOnce) (h : o.eval a = .ok v) : ∃ w, e.eval a = .ok w ∧ v.read m.name = .ok w := by
  rcases argumentPlace found with ⟨i, t, ms, es, rfl, inside⟩ | ⟨i, t, base, bs, rfl, inside⟩
  · exact constructReads h once inside
  · exact populateReads h once inside

theorem argumentPart {o e : Expr} {m : Member} (found : o.argumentFor? m = some e) : e ∈ o.parts := by
  rcases argumentPlace found with ⟨i, t, ms, es, rfl, inside⟩ | ⟨i, t, base, bs, rfl, inside⟩
  · exact argumentInside inside
  · exact bindingInside inside

end SymbolicQuery.Expr
