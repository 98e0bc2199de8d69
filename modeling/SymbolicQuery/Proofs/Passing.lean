import SymbolicQuery.Expr.Pass
import SymbolicQuery.Proofs.Parts
import SymbolicQuery.Proofs.Threading

/-! One step of a pass. A node is replaced when it is entered, or it is left as a node of the same kind
over what the pass makes of its parts; every property of a pass follows by induction on the parts. -/
namespace SymbolicQuery
open SymbolicQuery.Expr Results

namespace Pass
variable {σ : Type} {m : Type → Type} [Monad m] [Results m] [Threaded m σ] {p : Pass m} {s t : σ}

def Turns (p : Pass m) (e : Expr) (s : σ) (e' : Expr) (t : σ) : Prop := leads (p.run e) s e' t

theorem settled {R : Expr → Expr → Prop} {before e' : Expr} {unchanged : Bool} {rebuilt : Nat → Expr}
    (h : leads (p.settle before unchanged rebuilt) s e' t) (made : ∀ i, Rebuilt R before (rebuilt i))
    (numbered : ∀ i, (rebuilt i).id = i) (same : unchanged = true ↔ rebuilt before.id = before) {cs : List Expr}
    (parts : ∀ i, (rebuilt i).parts = cs) :
    ∃ n u, Rebuilt R before n ∧ n.parts = cs ∧
      (n = before ∧ s = u ∨ n.parts ≠ before.parts ∧ leads p.fresh s n.id u) ∧ leads (p.leave before n) u e' t := by
  unfold settle at h
  split at h
  · rename_i kept
    have back := same.mp kept
    refine ⟨before, s, ?_, (congrArg Expr.parts back).symm.trans (parts _), .inl ⟨rfl, rfl⟩, h⟩
    simpa only [back] using made before.id
  · rename_i changed
    obtain ⟨i, u, fresh, left⟩ := Threaded.ofBind h
    have numbers : leads p.fresh s (rebuilt i).id u := by rwa [numbered]
    refine ⟨rebuilt i, u, made i, parts i, .inr ⟨fun unchanged => changed (same.mpr ?_), numbers⟩, left⟩
    refine ((made before.id).along ?_).same (numbered _)
    rw [parts, ← parts i, unchanged, List.forall₂_eq_eq_eq]

theorem runAllLeads {es es' : List Expr} (h : leads (p.runAll es) s es' t) : Along p.Turns es s es' t := by
  induction es generalizing es' s with
  | nil =>
    unfold runAll at h
    obtain ⟨rfl, rfl⟩ := Threaded.ofPure h
    exact .nil
  | cons e rest ih =>
    unfold runAll at h
    obtain ⟨e', u, head, h⟩ := Threaded.ofBind h
    obtain ⟨rest', v, tail, h⟩ := Threaded.ofBind h
    obtain ⟨rfl, rfl⟩ := Threaded.ofPure h
    exact .cons head (ih tail)

theorem runBindingsLeads {bs bs' : List Binding} (h : leads (p.runBindings bs) s bs' t) :
    List.Forall₂ (BindingOf.Related fun _ _ => True) bs bs' ∧
      Along p.Turns (bs.flatMap BindingOf.parts) s (bs'.flatMap BindingOf.parts) t := by
  induction bs generalizing bs' s with
  | nil =>
    unfold runBindings at h
    obtain ⟨rfl, rfl⟩ := Threaded.ofPure h
    exact ⟨.nil, .nil⟩
  | cons b rest ih =>
    cases b with
    | assign member value =>
      unfold runBindings at h
      obtain ⟨value', u, head, h⟩ := Threaded.ofBind h
      obtain ⟨rest', v, tail, h⟩ := Threaded.ofBind h
      obtain ⟨rfl, rfl⟩ := Threaded.ofPure h
      obtain ⟨shape, along⟩ := ih tail
      exact ⟨.cons (.assign trivial) shape, .cons head along⟩
    | collect member items =>
      unfold runBindings at h
      obtain ⟨items', u, head, h⟩ := Threaded.ofBind h
      obtain ⟨rest', v, tail, h⟩ := Threaded.ofBind h
      obtain ⟨rfl, rfl⟩ := Threaded.ofPure h
      obtain ⟨shape, along⟩ := ih tail
      have first := runAllLeads head
      exact ⟨.cons (.collect (first.related fun _ => trivial)) shape, first.append along⟩

theorem runLeads {e e' : Expr} (h : leads (p.run e) s e' t) :
    leads (p.enter e) s (some e') t ∨
      ∃ u v w n, leads (p.enter e) s none u ∧ Rebuilt (fun _ _ => True) e n ∧ Along p.Turns e.parts u n.parts v ∧
        (n = e ∧ v = w ∨ n.parts ≠ e.parts ∧ leads p.fresh v n.id w) ∧ leads (p.leave e n) w e' t := by
  unfold run at h
  obtain ⟨entered, u, enter, h⟩ := Threaded.ofBind h
  cases entered with
  | some replacement =>
    obtain ⟨rfl, rfl⟩ := Threaded.ofPure h
    exact .inl enter
  | none =>
    have goes : ∀ {rebuilt : Nat → Expr} {unchanged : Bool} {cs : List Expr} {v : σ},
        leads (p.settle e unchanged rebuilt) v e' t → Along p.Turns e.parts u cs v →
        (∀ i, Rebuilt (fun _ _ => True) e (rebuilt i)) → (∀ i, (rebuilt i).id = i) →
        (unchanged = true ↔ rebuilt e.id = e) → (∀ i, (rebuilt i).parts = cs) →
        ∃ u v w n, leads (p.enter e) s none u ∧ Rebuilt (fun _ _ => True) e n ∧
          Along p.Turns e.parts u n.parts v ∧
          (n = e ∧ v = w ∨ n.parts ≠ e.parts ∧ leads p.fresh v n.id w) ∧ leads (p.leave e n) w e' t := by
      intro rebuilt unchanged cs v left along made numbered same parts
      obtain ⟨n, w, shape, rfl, fresh, left⟩ := settled left made numbered same parts
      exact ⟨u, v, w, n, enter, shape, along, fresh, left⟩
    refine .inr ?_
    cases e with
    | constant id ty value => exact ⟨u, u, u, _, enter, .constant, .nil, .inl ⟨rfl, rfl⟩, h⟩
    | parameter id q => exact ⟨u, u, u, _, enter, .parameter, .nil, .inl ⟨rfl, rfl⟩, h⟩
    | reference id source => exact ⟨u, u, u, _, enter, .reference, .nil, .inl ⟨rfl, rfl⟩, h⟩
    | access id object member =>
      obtain ⟨object', v, head, h⟩ := Threaded.ofBind h
      exact goes h (.cons head .nil) (fun _ => .access trivial) (fun _ => rfl) (by simp [Expr.id]) fun _ => rfl
    | getter id object member =>
      obtain ⟨object', v, head, h⟩ := Threaded.ofBind h
      exact goes h (.cons head .nil) (fun _ => .getter trivial) (fun _ => rfl) (by simp [Expr.id]) fun _ => rfl
    | unary id ty op operand =>
      obtain ⟨operand', v, head, h⟩ := Threaded.ofBind h
      exact goes h (.cons head .nil) (fun _ => .unary trivial) (fun _ => rfl) (by simp [Expr.id]) fun _ => rfl
    | binary id ty op left right =>
      obtain ⟨left', v, first, h⟩ := Threaded.ofBind h
      obtain ⟨right', w, second, h⟩ := Threaded.ofBind h
      exact goes h (.cons first (.cons second .nil)) (fun _ => .binary trivial trivial) (fun _ => rfl)
        (by simp [Expr.id]) fun _ => rfl
    | textCall id method receiver args =>
      obtain ⟨receiver', v, first, h⟩ := Threaded.ofBind h
      obtain ⟨args', w, second, h⟩ := Threaded.ofBind h
      have rest := runAllLeads second
      exact goes h (.cons first rest) (fun _ => .textCall trivial (rest.related fun _ => trivial)) (fun _ => rfl)
        (by simp [Expr.id]) fun _ => rfl
    | stageCall id ty stage input args =>
      obtain ⟨input', v, first, h⟩ := Threaded.ofBind h
      obtain ⟨args', w, second, h⟩ := Threaded.ofBind h
      have rest := runAllLeads second
      exact goes h (.cons first rest) (fun _ => .stageCall trivial (rest.related fun _ => trivial)) (fun _ => rfl)
        (by simp [Expr.id]) fun _ => rfl
    | convert id ty checked operand =>
      obtain ⟨operand', v, head, h⟩ := Threaded.ofBind h
      exact goes h (.cons head .nil) (fun _ => .convert trivial) (fun _ => rfl) (by simp [Expr.id]) fun _ => rfl
    | construct id type members args =>
      obtain ⟨args', v, all, h⟩ := Threaded.ofBind h
      have all := runAllLeads all
      exact goes h all (fun _ => .construct (all.related fun _ => trivial)) (fun _ => rfl) (by simp [Expr.id])
        fun _ => rfl
    | populate id type base bindings =>
      obtain ⟨base', v, first, h⟩ := Threaded.ofBind h
      obtain ⟨bindings', w, second, h⟩ := Threaded.ofBind h
      obtain ⟨shape, rest⟩ := runBindingsLeads second
      exact goes h (.cons first rest) (fun _ => .populate trivial shape) (fun _ => rfl)
        (by simp [Expr.id, sameBindingsIff]) fun _ => rfl
    | lambda id params body =>
      obtain ⟨body', v, head, h⟩ := Threaded.ofBind h
      exact goes h (.cons head .nil) (fun _ => .lambda trivial) (fun _ => rfl) (by simp [Expr.id]) fun _ => rfl

include σ in
theorem runStep {e e' : Expr} (h : yields (p.run e) e') :
    yields (p.enter e) (some e') ∨
      yields (p.enter e) none ∧
        ∃ n, Rebuilt (fun c c' => yields (p.run c) c') e n ∧ yields (p.leave e n) e' := by
  obtain ⟨s, t, h⟩ := Threaded.yielded.mp h
  rcases runLeads h with entered | ⟨u, v, w, n, enter, shape, along, _, left⟩
  · exact .inl (Threaded.yields entered)
  · exact .inr ⟨Threaded.yields enter, n, shape.along (along.related Threaded.yields), Threaded.yields left⟩

section Failing
variable {ε : Type} {m : Type → Type} [Monad m] [Results m] {p : Pass (ExceptT ε m)} {err : ε}

structure FailsOnEntry (p : Pass (ExceptT ε m)) : Prop where
  fresh : ∀ err, ¬ fails p.fresh err
  leave : ∀ before after err, ¬ fails (p.leave before after) err

theorem FailsOnEntry.settle (only : p.FailsOnEntry) {before : Expr} {unchanged : Bool}
    {rebuilt : Nat → Expr} : ¬ fails (p.settle before unchanged rebuilt) err := by
  intro h
  unfold Pass.settle at h
  split at h
  · exact only.leave _ _ _ h
  · rcases failsBind h with h | ⟨_, _, h⟩
    · exact only.fresh _ h
    · exact only.leave _ _ _ h

inductive FailsAt (p : Pass (ExceptT ε m)) (err : ε) : List Expr → Prop where
  | here {e rest} (failed : fails (p.run e) err) : FailsAt p err (e :: rest)
  | later {e e' rest} (turned : yields (p.run e) e') (below : FailsAt p err rest) : FailsAt p err (e :: rest)

theorem FailsAt.inside {es : List Expr} (failsAt : p.FailsAt err es) : ∃ e ∈ es, fails (p.run e) err := by
  induction failsAt with
  | here failed => exact ⟨_, List.mem_cons_self, failed⟩
  | later _ _ ih =>
    obtain ⟨c, inside, failed⟩ := ih
    exact ⟨c, List.mem_cons_of_mem _ inside, failed⟩

theorem FailsAt.within {es rest : List Expr} (failsAt : p.FailsAt err es) : p.FailsAt err (es ++ rest) := by
  induction failsAt with
  | here failed => exact .here failed
  | later turned _ ih => exact .later turned ih

theorem FailsAt.beyond {es es' rest : List Expr} (turned : yields (p.runAll es) es') (failsAt : p.FailsAt err rest) :
    p.FailsAt err (es ++ rest) := by
  induction es generalizing es' with
  | nil => exact failsAt
  | cons e es ih =>
    unfold runAll at turned
    obtain ⟨_, head, turned⟩ := ofBind turned
    obtain ⟨_, tail, _⟩ := ofBind turned
    exact .later head (ih tail)

theorem FailsAt.first {first : Expr → Option ε} {es : List Expr} (failsAt : p.FailsAt err es)
    (turns : ∀ c ∈ es, ∀ c', yields (p.run c) c' → first c = none)
    (stops : ∀ c ∈ es, fails (p.run c) err → first c = some err) : es.findSome? first = some err := by
  induction failsAt with
  | here failed => rw [List.findSome?_cons, stops _ List.mem_cons_self failed]
  | later turned _ ih =>
    rw [List.findSome?_cons, turns _ List.mem_cons_self _ turned]
    exact ih (fun c inside => turns c (List.mem_cons_of_mem _ inside))
      (fun c inside => stops c (List.mem_cons_of_mem _ inside))

theorem runAllFails {es : List Expr} (h : fails (p.runAll es) err) : p.FailsAt err es := by
  induction es with
  | nil =>
    unfold runAll at h
    exact (failsPure h).elim
  | cons e rest ih =>
    unfold runAll at h
    rcases failsBind h with head | ⟨_, turned, h⟩
    · exact .here head
    · rcases failsBind h with tail | ⟨_, _, h⟩
      · exact .later turned (ih tail)
      · exact (failsPure h).elim

theorem runBindingsFails {bs : List Binding} (h : fails (p.runBindings bs) err) :
    p.FailsAt err (bs.flatMap BindingOf.parts) := by
  induction bs with
  | nil =>
    unfold runBindings at h
    exact (failsPure h).elim
  | cons b rest ih =>
    cases b with
    | assign member value =>
      unfold runBindings at h
      rcases failsBind h with head | ⟨_, turned, h⟩
      · exact .here head
      · rcases failsBind h with tail | ⟨_, _, h⟩
        · exact .later turned (ih tail)
        · exact (failsPure h).elim
    | collect member items =>
      unfold runBindings at h
      rcases failsBind h with head | ⟨_, turned, h⟩
      · exact (runAllFails head).within
      · rcases failsBind h with tail | ⟨_, _, h⟩
        · exact .beyond turned (ih tail)
        · exact (failsPure h).elim

theorem runFailsStep (only : p.FailsOnEntry) {e : Expr} (h : fails (p.run e) err) :
    fails (p.enter e) err ∨ yields (p.enter e) none ∧ p.FailsAt err e.parts := by
  unfold run at h
  rcases failsBind h with h | ⟨entered, enter, h⟩
  · exact .inl h
  cases entered with
  | some replacement => exact (failsPure h).elim
  | none =>
    refine .inr ⟨enter, ?_⟩
    -- leaving never fails, so the failure is that of the first part that has one
    cases e with
    | constant | parameter | reference => exact (only.leave _ _ _ h).elim
    | access | getter | unary | convert | lambda =>
      rcases failsBind h with h | ⟨_, _, h⟩
      · exact .here h
      · exact (only.settle h).elim
    | binary =>
      rcases failsBind h with h | ⟨_, turned, h⟩
      · exact .here h
      · rcases failsBind h with h | ⟨_, _, h⟩
        · exact .later turned (.here h)
        · exact (only.settle h).elim
    | textCall | stageCall =>
      rcases failsBind h with h | ⟨_, turned, h⟩
      · exact .here h
      · rcases failsBind h with h | ⟨_, _, h⟩
        · exact .later turned (runAllFails h)
        · exact (only.settle h).elim
    | construct =>
      rcases failsBind h with h | ⟨_, _, h⟩
      · exact runAllFails h
      · exact (only.settle h).elim
    | populate =>
      rcases failsBind h with h | ⟨_, turned, h⟩
      · exact .here h
      · rcases failsBind h with h | ⟨_, _, h⟩
        · exact .later turned (runBindingsFails h)
        · exact (only.settle h).elim

theorem runFails (only : p.FailsOnEntry) {e : Expr} (h : fails (p.run e) err) :
    ∃ n, Shown (fun n => yields (p.enter n) none) e n ∧ fails (p.enter n) err := by
  induction e using partsInduction with
  | step e ih =>
    rcases runFailsStep only h with here | ⟨opened, below⟩
    · exact ⟨e, .root, here⟩
    · obtain ⟨c, inside, below⟩ := below.inside
      obtain ⟨n, shown, failed⟩ := ih c inside below
      exact ⟨n, shown.under opened inside, failed⟩

end Failing

end Pass

end SymbolicQuery
