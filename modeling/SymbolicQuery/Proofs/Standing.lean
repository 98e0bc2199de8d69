import SymbolicQuery.Proofs.Assembly

/-! What an assembled query is made of. Clauses and the selector are typed over the source of the
query; each grouping is typed over the source that its rows are known by, and leads to another.
A count or a first row ends that: no operator after it has rows to run on. -/
namespace SymbolicQuery
open Results

namespace Expr

def NoLeaf (_ : Expr) : Prop := False

theorem Written.sound {p : Param} {e : Expr} (written : e.Written [p]) (once : e.Every NamesOnce) :
    e.Sound (OfParam p) := by
  refine fun n inside => ⟨(written n inside).mono fun n known => ?_, once n inside⟩
  obtain ⟨q, member, leaf⟩ := known
  cases List.mem_singleton.mp member
  exact leaf

theorem Written.soundClosed {e : Expr} (written : e.Written []) (once : e.Every NamesOnce) :
    e.Sound NoLeaf := by
  refine fun n inside => ⟨(written n inside).mono fun n known => ?_, once n inside⟩
  obtain ⟨q, member, _⟩ := known
  cases member

theorem ofSourceSound {s : Source} {e : Expr} (upon : e.OfSource s) : e.Sound (OfSource s) := by
  obtain ⟨i, rfl⟩ := upon
  refine everyIff.mpr ⟨⟨.reference ⟨i, rfl⟩, List.nodup_nil⟩, fun c inside => ?_⟩
  cases inside

end Expr

namespace ResultOperator

inductive Leads (s : Source) : ResultOperator → Source → Prop where
  | group {name id key element} (keySound : key.Sound (Expr.OfSource s))
      (elementSound : element.Sound (Expr.OfSource s)) :
      Leads s (.group name id key element) (groupSource name id key element)
  | distinct : Leads s .distinct s
  | take {n} (count : n.Sound Expr.NoLeaf) : Leads s (.take n) s
  | skip {n} (count : n.Sound Expr.NoLeaf) : Leads s (.skip n) s

inductive LeadAll : Source → List ResultOperator → Source → Prop where
  | nil {s : Source} : LeadAll s [] s
  | cons {s u t : Source} {op : ResultOperator} {rest : List ResultOperator} (leads : op.Leads s u)
      (later : LeadAll u rest t) : LeadAll s (op :: rest) t

theorem LeadAll.snoc {s t u : Source} {ops : List ResultOperator} {op : ResultOperator}
    (all : LeadAll s ops t) (leads : op.Leads t u) : LeadAll s (ops ++ [op]) u := by
  induction all with
  | nil => exact .cons leads .nil
  | cons head _ ih => exact .cons head (ih leads)

def IsScalar : ResultOperator → Prop
  | count | first _ => True
  | _ => False

end ResultOperator

namespace Query
open SymbolicQuery.Expr

structure Stands (root : Expr) (t : Ty) (q : Query) (item : Expr) : Prop where
  origin : q.origin = root
  itemType : itemTypeOf root.ty = .ok q.source.itemType
  clauses : ∀ c ∈ q.clauses, ∀ e ∈ c.exprs, e.Sound (OfSource q.source)
  selector : q.selector.Sound (OfSource q.source)
  counts : ∀ op ∈ q.operators, ∀ n, op = .take n ∨ op = .skip n → n.Sound NoLeaf
  operators : (∃ s, ResultOperator.LeadAll q.source q.operators s ∧ item.Sound (OfSource s) ∧
      t.itemType = item.ty) ∨
    ∃ s live op rest, q.operators = live ++ op :: rest ∧ ResultOperator.LeadAll q.source live s ∧
      op.IsScalar

variable {root item item' : Expr} {q q' : Query} {c : Call} {calls : List Call} {input t : Ty}

theorem Stands.start (starts : Starts root q) (upon : item.OfSource q.source) :
    Stands root root.ty q item where
  origin := starts.origin
  itemType := starts.itemType
  clauses c inside := by
    rw [starts.clauses] at inside
    cases inside
  selector := ofSourceSound starts.selector
  counts op inside := by
    rw [starts.operators] at inside
    cases inside
  operators := by
    refine .inl ⟨q.source, starts.operators ▸ .nil, ofSourceSound upon, ?_⟩
    obtain ⟨i, rfl⟩ := upon
    have known := starts.itemType
    unfold itemTypeOf at known
    unfold Ty.itemType
    split at known
    · rename_i same
      rw [same]
      exact Except.ok.inj known
    · rename_i same
      rw [same]
      exact Except.ok.inj known
    · cases known

theorem Stands.first (stands : Stands root t q item) (first : q.operators = []) :
    item.Sound (OfSource q.source) ∧ t.itemType = item.ty := by
  rcases stands.operators with ⟨s, leads, sound, same⟩ | ⟨_, _, _, _, some, _⟩
  · rw [first] at leads
    cases leads
    exact ⟨sound, same⟩
  · rw [first] at some
    simp at some

theorem putSound {s : Source} {p : Param} {body e r : Expr} (upon : FunctionOver t p body e)
    (once : e.Every NamesOnce) (sound : item.Sound (OfSource s)) (same : t = item.ty)
    (put : item.Puts p body r) : r.Sound (OfSource s) ∧ r.ty = body.ty := by
  obtain ⟨ty, written, i, rfl⟩ := upon
  exact puttingSound put (written.sound (once.part List.mem_cons_self)) sound (same.symm.trans ty.symm)

theorem Stands.addClause (stands : Stands root t q item) {clause : Clause}
    (sound : ∀ e ∈ clause.exprs, e.Sound (OfSource q.source)) :
    Stands root t (q.addClause clause) item where
  origin := stands.origin
  itemType := stands.itemType
  clauses c inside := by
    rcases List.mem_append.mp inside with before | last
    · exact stands.clauses c before
    · cases List.mem_singleton.mp last
      exact sound
  selector := stands.selector
  counts := stands.counts
  operators := stands.operators

theorem Stands.addOperator {u : Ty} (stands : Stands root t q item) {op : ResultOperator}
    (count : ∀ n, op = .take n ∨ op = .skip n → n.Sound NoLeaf)
    (leads : ∀ s, ResultOperator.LeadAll q.source q.operators s → item.Sound (OfSource s) →
      t.itemType = item.ty →
      op.IsScalar ∨ ∃ s', op.Leads s s' ∧ item'.Sound (OfSource s') ∧ u.itemType = item'.ty) :
    Stands root u (q.addOperator op) item' where
  origin := stands.origin
  itemType := stands.itemType
  clauses := stands.clauses
  selector := stands.selector
  counts op' inside := by
    rcases List.mem_append.mp inside with before | last
    · exact stands.counts op' before
    · cases List.mem_singleton.mp last
      exact count
  operators := by
    rcases stands.operators with ⟨s, all, sound, same⟩ | ⟨s, live, op', rest, same, all, scalar⟩
    · rcases leads s all sound same with scalar | ⟨s', leads, sound', same'⟩
      · exact .inr ⟨s, q.operators, op, [], rfl, all, scalar⟩
      · exact .inl ⟨s', all.snoc leads, sound', same'⟩
    · refine .inr ⟨s, live, op', rest ++ [op], ?_, all, scalar⟩
      simp only [Query.addOperator, same, List.append_assoc, List.cons_append]

theorem Stands.group {u : Ty} {name : String} {id i : Nat} {key element : Expr}
    (stands : Stands root t q item)
    (sound : ∀ s, item.Sound (OfSource s) → t.itemType = item.ty →
      key.Sound (OfSource s) ∧ element.Sound (OfSource s) ∧
        u.itemType = .grouping key.ty element.ty) :
    Stands root u (q.addOperator (.group name id key element))
      (.reference i (ResultOperator.groupSource name id key element)) :=
  stands.addOperator (by simp) fun s _ known same => by
    obtain ⟨keySound, elementSound, types⟩ := sound s known same
    exact .inr ⟨_, .group keySound elementSound, ofSourceSound ⟨i, rfl⟩, types⟩

theorem Stands.call (stands : Stands root input q item) (adds : c.Adds input q item t q' item')
    (once : ∀ a ∈ c.args, a.Every NamesOnce) : Stands root t q' item' := by
  cases adds with
  | filter first upon put =>
    obtain ⟨sound, same⟩ := stands.first first
    refine stands.addClause fun e inside => ?_
    cases List.mem_singleton.mp inside
    exact (putSound upon (once _ List.mem_cons_self) sound same put).1
  | sort first upon put | sortDescending first upon put =>
    obtain ⟨sound, same⟩ := stands.first first
    refine stands.addClause fun e inside => ?_
    cases List.mem_singleton.mp inside
    exact (putSound upon (once _ List.mem_cons_self) sound same put).1
  | project first upon put =>
    obtain ⟨sound, same⟩ := stands.first first
    obtain ⟨made, ty⟩ := putSound upon (once _ List.mem_cons_self) sound same put
    exact ⟨stands.origin, stands.itemType, stands.clauses, made, stands.counts,
      .inl ⟨q.source, first ▸ .nil, made, ty.symm⟩⟩
  | group upon put =>
    refine stands.group fun s sound same => ?_
    obtain ⟨made, ty⟩ := putSound upon (once _ List.mem_cons_self) sound same put
    exact ⟨made, sound, by rw [ty, ← same]; rfl⟩
  | groupElements upon put upon' put' =>
    refine stands.group fun s sound same => ?_
    obtain ⟨made, ty⟩ := putSound upon (once _ List.mem_cons_self) sound same put
    obtain ⟨made', ty'⟩ := putSound upon' (once _ (List.mem_cons_of_mem _ List.mem_cons_self)) sound same put'
    exact ⟨made, made', by rw [ty, ty']; rfl⟩
  | distinct => exact stands.addOperator (by simp) fun s _ sound same => .inr ⟨s, .distinct, sound, same⟩
  | take count =>
    have closed := count.soundClosed (once _ List.mem_cons_self)
    exact stands.addOperator (by simpa using closed) fun s _ sound same =>
      .inr ⟨s, .take closed, sound, same⟩
  | skip count =>
    have closed := count.soundClosed (once _ List.mem_cons_self)
    exact stands.addOperator (by simpa using closed) fun s _ sound same =>
      .inr ⟨s, .skip closed, sound, same⟩
  | count | first | firstOrNull => exact stands.addOperator (by simp) fun _ _ _ _ => .inl trivial

theorem Built.stands (built : Built root calls t q item)
    (once : ∀ c ∈ calls, ∀ a ∈ c.args, a.Every NamesOnce) : Stands root t q item := by
  induction built with
  | start starts upon => exact .start starts upon
  | call _ adds ih =>
    refine (ih fun c inside => once c (List.mem_append_left _ inside)).call adds ?_
    exact once _ (List.mem_append_right _ List.mem_cons_self)

end Query

end SymbolicQuery
