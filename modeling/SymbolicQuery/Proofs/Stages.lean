import SymbolicQuery.Proofs.Asking
import SymbolicQuery.Proofs.Operating
import SymbolicQuery.Proofs.Tracking

/-! Chains stage by stage. Each call of a chain can be run by itself, on the values that the call before it
left. The assembled query works on the items of the document instead, and projects them once at the
end; item by item, it comes to the same values. -/
namespace SymbolicQuery
open Results QueryError SymbolicQuery.Expr

namespace Call

def function (c : Call) (index : Nat) : Except QueryError Closed := do (← c.lambda index).close

def rowCount (c : Call) : Except QueryError Nat :=
  match c.args with
  | [n] => ResultOperator.countOf c.stage.name n
  | args => .error (.misuse (.stageArity c.stage.name args.length))

def elementOf (c : Call) : Except QueryError (Value → Except QueryError Value) := do
  if c.args.length = 2 then
    let f ← c.function 1
    return fun v => f.call [v]
  else return .ok

def onValues (c : Call) (vs : List Value) : Except QueryError (List Value) := do
  match c.stage with
  | .filter => Query.select (← c.function 0) vs
  | .sort | .sortDescending => Query.sort [⟨← c.function 0, c.stage == .sortDescending⟩] vs
  | .project =>
    let f ← c.function 0
    vs.mapM fun v => f.call [v]
  | .group =>
    let key ← c.function 0
    let element ← c.elementOf
    let pairs ← vs.mapM fun v => return (← key.call [v], ← element v)
    return (Value.group pairs).map Group.toValue
  | .distinct => return Value.distinct vs
  | .take => return vs.take (← c.rowCount)
  | .skip => return vs.drop (← c.rowCount)
  | .count | .first | .firstOrNull => throw (.unsupported (.stageValue c.stage.name))

theorem functionIs {c : Call} {k : Nat} {f : Closed} {τ : Ty} {p : Param} {body e : Expr}
    (h : c.function k = .ok f) (found : c.args[k]? = some e) (upon : FunctionOver τ p body e) :
    f.lambda = ⟨[p], body⟩ := by
  obtain ⟨l, taken, closes⟩ := okBind.mp h
  obtain ⟨_, _, i, rfl⟩ := upon
  rw [Call.lambda, found] at taken
  cases taken
  exact Lambda.closeIs closes

end Call

theorem Tracks.expects {α β : Type} {S : α → β → Prop} {x : Except QueryError α} {y : Except QueryError β}
    {b : β} (tracks : Tracks S x y) (known : y = .ok b) : Expects x (fun a => S a b) fun _ => False := by
  obtain ⟨a, same, related⟩ := tracks b known
  rw [same]
  exact expectsOk related

namespace Query

section Functions
variable {s : Source} {item e r : Expr} {i : Nat}

theorem unresolveEnds (found : ∀ j t, item.Exposed e (.reference j t) →
    (Expr.reference j t).locate item = none → ∃ path, item.sourcePath t = .ok path) :
    Ends (item.unresolve e) (fun l => yields (item.unresolve e) l) fun _ => False := by
  refine ⟨fun _ made => made, fun err failed => ?_⟩
  obtain ⟨j, t, exposed, absent, error⟩ := unresolveFails failed
  obtain ⟨path, some⟩ := found j t exposed absent
  cases some.symm.trans error

theorem sourceFunctionEnds (sound : r.Sound (OfSource s)) :
    Ends (functionOf (.reference i s) r) (FunctionFrom (.reference i s) r) fun _ => False := by
  refine functionEnds (unresolveEnds fun j t exposed _ => ?_).2
  cases Sound.source (sound.node exposed.node)
  exact ⟨[], referencePath⟩

theorem putTracks {t : Ty} {p : Param} {body : Expr} {f : Closed} {x y : Value}
    (upon : FunctionOver t p body e) (once : e.Every NamesOnce) (sound : item.Sound (OfSource s))
    (same : t = item.ty) (put : item.Puts p body r) (is : f.lambda = ⟨[p], body⟩)
    (holds : s.itemType.Holds x) (value : item.eval (Assignment.at s x) = .ok y) :
    Tracks Eq (r.eval (Assignment.at s x)) (f.call [y]) := by
  obtain ⟨ty, written, j, rfl⟩ := upon
  have accepted := (sound.evalHolds (sourceKept holds) value).accepts
  rw [← same, ← ty] at accepted
  rw [Closed.callOne (congrArg Lambda.params is) accepted, is]
  intro w evaluates
  refine ⟨w, ?_, rfl⟩
  exact puttingEval put (written.sound (once.part List.mem_cons_self)) sound (if_pos rfl) value evaluates

end Functions

inductive Keeps : ResultOperator → List Value → List Value → Prop where
  | distinct {vs} : Keeps .distinct vs (Value.distinct vs)
  | take {n k vs} (size : ResultOperator.countOf Stage.take.name n = .ok k) : Keeps (.take n) vs (vs.take k)
  | skip {n k vs} (size : ResultOperator.countOf Stage.skip.name n = .ok k) : Keeps (.skip n) vs (vs.drop k)

inductive Trims : List ResultOperator → List Value → List Value → Prop where
  | nil {vs} : Trims [] vs vs
  | snoc {ops op vs ws us} (before : Trims ops vs ws) (keeps : Keeps op ws us) : Trims (ops ++ [op]) vs us

theorem Trims.nothing {ops : List ResultOperator} {vs ws : List Value} (trims : Trims ops vs ws)
    (first : ops = []) : ws = vs := by
  cases trims with
  | nil => rfl
  | snoc => simp at first

def StandsFor (q : Query) (item : Expr) (given : List Value) (x y : Value) : Prop :=
  x ∈ given ∧ item.eval (Assignment.at q.source x) = .ok y

/-- A query comes to the values that the calls have left: its clauses leave items that stand for values,
of which its operators keep those. The selector describes the same items as the next call sees. -/
structure Mirrors (calls : List Call) (q : Query) (item : Expr) (given out : List Value) : Prop where
  values : ∃ kept, Trims q.operators kept out ∧ ∀ i,
    Ends (q.clauses.foldlM (fun items c => runClause (.reference i q.source) c items) given)
      (fun xs => List.Forall₂ (q.StandsFor item given) xs kept) fun _ => False
  selector : q.selector = item ∨
    (∀ c ∈ calls, c.stage ≠ .project) ∧ q.selector.OfSource q.source ∧ item.OfSource q.source

variable {root item item' : Expr} {q q' : Query} {c : Call} {calls : List Call} {input t : Ty}
  {given out out' : List Value}

theorem Mirrors.start (starts : Starts root q) (upon : item.OfSource q.source) :
    Mirrors [] q item given given where
  values := by
    refine ⟨given, starts.operators ▸ .nil, fun i => ?_⟩
    rw [starts.clauses]
    exact endsPure (List.forall₂_same.mpr fun x inside => ⟨inside, referenceEval upon⟩)
  selector := .inr ⟨by simp, starts.selector, upon⟩

theorem Mirrors.first (mirrors : Mirrors calls q item given out) (first : q.operators = []) (i : Nat) :
    Ends (q.clauses.foldlM (fun items c => runClause (.reference i q.source) c items) given)
      (fun xs => List.Forall₂ (q.StandsFor item given) xs out) fun _ => False := by
  obtain ⟨kept, trims, ends⟩ := mirrors.values
  cases trims.nothing first
  exact ends i

theorem Mirrors.unselected (mirrors : Mirrors calls q item given out) (other : c.stage ≠ .project) :
    q.selector = item ∨
      (∀ d ∈ calls ++ [c], d.stage ≠ .project) ∧ q.selector.OfSource q.source ∧ item.OfSource q.source := by
  rcases mirrors.selector with same | ⟨others, upon⟩
  · exact .inl same
  · refine .inr ⟨fun d inside => ?_, upon⟩
    rcases List.mem_append.mp inside with before | last
    · exact others d before
    · exact List.mem_singleton.mp last ▸ other

theorem Mirrors.addClause {clause : Clause} (mirrors : Mirrors calls q item given out)
    (first : q.operators = []) (other : c.stage ≠ .project)
    (runs : ∀ i xs, List.Forall₂ (q.StandsFor item given) xs out →
      Ends (runClause (.reference i q.source) clause xs)
        (fun xs' => List.Forall₂ (q.StandsFor item given) xs' out') fun _ => False) :
    Mirrors (calls ++ [c]) (q.addClause clause) item given out' where
  values := by
    refine ⟨out', (show (q.addClause clause).operators = [] from first) ▸ .nil, fun i => ?_⟩
    rw [show (q.addClause clause).clauses = q.clauses ++ [clause] from rfl, List.foldlM_append]
    refine endsBind (mirrors.first first i) fun xs along => ?_
    rw [List.foldlM_cons]
    exact endsBind (runs i xs along) fun xs' along' => endsPure along'
  selector := mirrors.unselected other

theorem Mirrors.addOperator {op : ResultOperator} (mirrors : Mirrors calls q item given out)
    (other : c.stage ≠ .project)
    (trims : ∀ kept, Trims q.operators kept out → Trims (q.operators ++ [op]) kept out') :
    Mirrors (calls ++ [c]) (q.addOperator op) item given out' where
  values := by
    obtain ⟨kept, before, ends⟩ := mirrors.values
    exact ⟨kept, trims kept before, ends⟩
  selector := mirrors.unselected other

structure Resolves (q : Query) (input : Ty) (item : Expr) (f : Closed) (r : Expr) : Prop where
  sound : r.Sound (OfSource q.source)
  tracks : ∀ {x y}, q.source.itemType.Holds x → item.eval (Assignment.at q.source x) = .ok y →
    Tracks Eq (r.eval (Assignment.at q.source x)) (f.call [y])

theorem resolves {p : Param} {body e r : Expr} {f : Closed} (stands : Stands root input q item)
    (first : q.operators = []) (upon : FunctionOver input.itemType p body e) (once : e.Every NamesOnce)
    (put : item.Puts p body r) (is : f.lambda = ⟨[p], body⟩) : q.Resolves input item f r := by
  obtain ⟨sound, same⟩ := stands.first first
  exact ⟨(putSound upon once sound same put).1, fun holds value =>
    putTracks upon once sound same put is holds value⟩

variable {f g : Closed} {r : Expr} {i : Nat} {xs : List Value}

theorem Resolves.follows (resolves : q.Resolves input item f r)
    (holds : ∀ x ∈ given, q.source.itemType.Holds x) (made : FunctionFrom (.reference i q.source) r g) :
    Follows (q.StandsFor item given) g f := by
  intro x y ⟨inside, value⟩ w called
  obtain ⟨_, evaluates, rfl⟩ := resolves.tracks (holds x inside) value w called
  exact ⟨_, (made.value resolves.sound (holds x inside).accepts _).mpr evaluates, rfl⟩

theorem Resolves.filterEnds (resolves : q.Resolves input item f r)
    (holds : ∀ x ∈ given, q.source.itemType.Holds x) (called : select f out = .ok out')
    (along : List.Forall₂ (q.StandsFor item given) xs out) :
    Ends (runClause (.reference i q.source) (.filter r) xs)
      (fun xs' => List.Forall₂ (q.StandsFor item given) xs' out') fun _ => False :=
  endsBind (sourceFunctionEnds resolves.sound) fun _ made =>
    endsExcept ((selectTracks along (resolves.follows holds made)).expects called)

theorem Resolves.sortEnds {descending : Bool} (resolves : q.Resolves input item f r)
    (holds : ∀ x ∈ given, q.source.itemType.Holds x) (called : sort [⟨f, descending⟩] out = .ok out')
    (along : List.Forall₂ (q.StandsFor item given) xs out) :
    Ends (runClause (.reference i q.source) (.sort [⟨r, descending⟩]) xs)
      (fun xs' => List.Forall₂ (q.StandsFor item given) xs' out') fun _ => False := by
  refine endsBind (endsMap (R := fun k l => FollowsKey (q.StandsFor item given) l ⟨f, k.descending⟩)
    fun k inside => ?_) fun gs follow => endsExcept ?_
  · cases List.mem_singleton.mp inside
    exact endsBind (sourceFunctionEnds resolves.sound) fun _ made =>
      endsPure ⟨resolves.follows holds made, rfl⟩
  · cases follow with
    | cons head rest =>
      cases rest
      exact (sortTracks (.cons head .nil) along).expects called

theorem Resolves.projectMirrors {e : Expr} (resolves : q.Resolves input item f r)
    (mirrors : Mirrors calls q item given out) (first : q.operators = [])
    (holds : ∀ x ∈ given, q.source.itemType.Holds x)
    (called : out.mapM (fun v => f.call [v]) = .ok out') :
    Mirrors (calls ++ [⟨.project, [e]⟩]) { q with selector := r } r given out' where
  values := by
    refine ⟨out', first ▸ .nil, fun i => (mirrors.first first i).imp fun xs along => ?_⟩
    refine alongThen along ((ofMapM (m := Except QueryError) called)) fun x y w ⟨inside, value⟩ called => ?_
    obtain ⟨_, evaluates, rfl⟩ := resolves.tracks (holds x inside) value w called
    exact ⟨inside, evaluates⟩
  selector := .inl rfl

theorem Mirrors.call (mirrors : Mirrors calls q item given out) (stands : Stands root input q item)
    (holds : ∀ x ∈ given, q.source.itemType.Holds x) (adds : c.Adds input q item t q' item')
    (once : ∀ a ∈ c.args, a.Every NamesOnce) (other : c.stage ≠ .group)
    (called : c.onValues out = .ok out') : Mirrors (calls ++ [c]) q' item' given out' := by
  -- one case for each stage: the function on the items and the one on their values run in step
  cases adds with
  | filter first upon put =>
    obtain ⟨f, made, run⟩ := okBind.mp called
    have both := resolves stands first upon (once _ List.mem_cons_self) put (Call.functionIs made rfl upon)
    exact mirrors.addClause first (by simp) fun i xs along => both.filterEnds holds run along
  | sort first upon put | sortDescending first upon put =>
    obtain ⟨f, made, run⟩ := okBind.mp called
    have both := resolves stands first upon (once _ List.mem_cons_self) put (Call.functionIs made rfl upon)
    exact mirrors.addClause first (by simp) fun i xs along => both.sortEnds holds run along
  | project first upon put =>
    obtain ⟨f, made, run⟩ := okBind.mp called
    have both := resolves stands first upon (once _ List.mem_cons_self) put (Call.functionIs made rfl upon)
    exact both.projectMirrors mirrors first holds run
  | group | groupElements => exact absurd rfl other
  | distinct =>
    cases called
    exact mirrors.addOperator (by simp) fun kept before => .snoc before .distinct
  | take count =>
    obtain ⟨k, size, last⟩ := okBind.mp called
    cases last
    exact mirrors.addOperator (by simp) fun kept before => .snoc before (.take size)
  | skip count =>
    obtain ⟨k, size, last⟩ := okBind.mp called
    cases last
    exact mirrors.addOperator (by simp) fun kept before => .snoc before (.skip size)
  | count | first | firstOrNull => cases called

theorem Mirrors.selects (mirrors : Mirrors calls q item given out) {x y : Value}
    (for_ : q.StandsFor item given x y) : q.selector.eval (Assignment.at q.source x) = .ok y := by
  rcases mirrors.selector with same | ⟨_, selector, upon⟩
  · rw [same]
    exact for_.2
  · cases (referenceEval upon).symm.trans for_.2
    exact referenceEval selector

theorem Keeps.run {op : ResultOperator} {rows : Rows} {vs : List Value} (keeps : Keeps op rows.items vs) :
    Ends (op.run (.rows rows)) (fun o => ∃ rows', o = .rows rows' ∧ rows'.shape = rows.shape ∧
      rows'.items = vs ∧ ∀ v ∈ vs, v ∈ rows.items) fun _ => False := by
  have input : (Output.rows rows).rows? = .ok rows := rfl
  cases keeps with
  | distinct =>
    refine endsKnown input (endsPure ⟨_, rfl, rfl, rfl, fun v inside => ?_⟩)
    exact (Value.distinctSublist _).subset inside
  | take size =>
    refine endsKnown size (endsKnown input (endsPure ⟨_, rfl, rfl, rfl, fun v inside => ?_⟩))
    exact List.mem_of_mem_take inside
  | skip size =>
    refine endsKnown size (endsKnown input (endsPure ⟨_, rfl, rfl, rfl, fun v inside => ?_⟩))
    exact List.mem_of_mem_drop inside

theorem Trims.run {ops : List ResultOperator} {kept : List Value} (trims : Trims ops kept out) {rows : Rows}
    (items : rows.items = kept) : Ends (ops.foldlM (fun input op => op.run input) (.rows rows))
      (fun o => ∃ rows', o = .rows rows' ∧ rows'.shape = rows.shape ∧ rows'.items = out ∧
        ∀ v ∈ out, v ∈ kept) fun _ => False := by
  induction trims with
  | nil => exact endsPure ⟨rows, rfl, rfl, items, fun _ => id⟩
  | snoc _ keeps ih =>
    rw [List.foldlM_append]
    refine endsBind (ih items) ?_
    intro o left
    obtain ⟨rows', rfl, shape, rfl, among⟩ := left
    rw [List.foldlM_cons]
    refine endsBind keeps.run ?_
    intro o left
    obtain ⟨rows'', rfl, shape', rfl, among'⟩ := left
    exact endsPure ⟨rows'', rfl, shape'.trans shape, rfl, fun v inside => among v (among' v inside)⟩

theorem Mirrors.execute (mirrors : Mirrors calls q item given out) (stands : Stands root t q item)
    (has : q.HasItems given) : Ends q.execute (fun o => ∃ rows, o = .rows rows ∧
      rows.shape = .ofItem q.selector ∧ rows.items = out ∧
      ∀ v ∈ out, ∃ x ∈ given, q.selector.eval (Assignment.at q.source x) = .ok v) fun _ => False := by
  obtain ⟨kept, trims, ends⟩ := mirrors.values
  refine endsKnown has.start (endsBind referenceEnds fun n refers => ?_)
  obtain ⟨i, rfl⟩ := refers
  refine endsBind (ends i) fun xs along => endsBind (sourceFunctionEnds stands.selector) fun f made => ?_
  have described : ∀ v ∈ kept, ∃ x ∈ given, q.selector.eval (Assignment.at q.source x) = .ok v := by
    intro v inside
    obtain ⟨x, _, for_⟩ := partFrom along inside
    exact ⟨x, for_.1, mirrors.selects for_⟩
  have selected : List.Forall₂ (fun x v => f.call [x] = .ok v) xs kept := along.imp fun x y for_ =>
    (made.value stands.selector (has.1 x for_.1).accepts y).mpr (mirrors.selects for_)
  refine endsBind (endsAlong selected fun x v known => endsExcept (expectsKnown known)) ?_
  intro vs known
  subst known
  refine endsBind (endsExcept (rowsExpects fun v inside => ?_)) fun rows ⟨shape, items⟩ =>
    (trims.run items).imp ?_
  · obtain ⟨x, among, value⟩ := described v inside
    exact describedAccepted stands (has.1 x among) value
  · intro o left
    obtain ⟨rows', rfl, shape', items', among⟩ := left
    exact ⟨rows', rfl, shape'.trans shape, items', fun v inside => described v (among v inside)⟩

theorem Built.mirrors (built : Built root calls t q item)
    (once : ∀ c ∈ calls, ∀ a ∈ c.args, a.Every NamesOnce) (plain : ∀ c ∈ calls, c.stage ≠ .group)
    (holds : ∀ x ∈ given, q.source.itemType.Holds x)
    (staged : calls.foldlM (fun vs c => c.onValues vs) given = .ok out) :
    Mirrors calls q item given out := by
  induction built generalizing out with
  | start starts upon =>
    cases staged
    exact .start starts upon
  | @call calls _ _ _ _ _ _ c before adds ih =>
    rw [(addsOrigin adds).2] at holds
    rw [List.foldlM_append] at staged
    obtain ⟨vs, earlier, last⟩ := okBind.mp staged
    obtain ⟨ws, called, same⟩ := okBind.mp last
    cases same
    have onceBefore : ∀ c ∈ calls, ∀ a ∈ c.args, a.Every NamesOnce :=
      fun c inside => once c (List.mem_append_left _ inside)
    have member : c ∈ calls ++ [c] := List.mem_append_right _ List.mem_cons_self
    have mirrors := ih onceBefore (fun c inside => plain c (List.mem_append_left _ inside)) holds earlier
    exact mirrors.call (before.stands onceBefore) holds adds (once c member) (plain c member) called

end Query

namespace Command
variable {text input : String} {js : List Json} {s : Supply} {chain : Expr} {q : Query}

end Command

end SymbolicQuery
