import SymbolicQuery.Proofs.Assembly

/-! The layers of an assembled query. Its sources are new, and each is told apart by when it was given out:
clauses and the selector refer to the first, and each grouping to the one that its rows are known by.
All other references are those that the chain had before. -/
namespace SymbolicQuery
open Results

instance : Preorder Supply where
  le s t := s.node ≤ t.node ∧ s.param ≤ t.param ∧ s.source ≤ t.source
  le_refl _ := ⟨Nat.le_refl _, Nat.le_refl _, Nat.le_refl _⟩
  le_trans _ _ _ first next :=
    ⟨Nat.le_trans first.1 next.1, Nat.le_trans first.2.1 next.2.1, Nat.le_trans first.2.2 next.2.2⟩

namespace Expr
variable {s t : Supply} {among further : Source → Prop} {e n : Expr}

def Issued (s : Supply) (among : Source → Prop) (n : Expr) : Prop :=
  n.id < s.node ∧ match n with
    | .parameter _ p => p.id < s.param
    | .reference _ r => among r
    | _ => True

def Before (s : Supply) (e : Expr) : Prop := e.Every (Issued s fun r => r.id < s.source)

instance [DecidablePred among] : DecidablePred (Issued s among)
  | .parameter .. | .reference .. => inferInstanceAs (Decidable (_ ∧ _))
  | .constant .. | .access .. | .getter .. | .unary .. | .binary .. | .textCall .. | .stageCall .. | .convert ..
  | .construct .. | .populate .. | .lambda .. => inferInstanceAs (Decidable (_ ∧ True))

instance : Decidable (e.Before s) := inferInstanceAs (Decidable (∀ n ∈ e.nodes, Issued s _ n))

theorem Issued.mono (issued : n.Issued s among) (later : s ≤ t) (wider : ∀ r, among r → further r) :
    n.Issued t further := by
  refine ⟨Nat.lt_of_lt_of_le issued.1 later.1, ?_⟩
  have leaf := issued.2
  cases n with
  | parameter => exact Nat.lt_of_lt_of_le leaf later.2.1
  | reference => exact wider _ leaf
  | _ => trivial

theorem everyMono (issued : e.Every (Issued s among)) (later : s ≤ t) (wider : ∀ r, among r → further r) :
    e.Every (Issued t further) := fun n inside => (issued n inside).mono later wider

theorem issuedReference {i : Nat} {r : Source} (given : i < s.node) (known : among r) :
    (Expr.reference i r).Every (Issued s among) := by
  intro n inside
  cases List.mem_singleton.mp inside
  exact ⟨given, known⟩

theorem Issued.rebuilt {R : Expr → Expr → Prop} (issued : e.Issued s among) (same : Rebuilt R e n) (given : n.id < s.node) :
    n.Issued s among := by
  refine ⟨given, ?_⟩
  have leaf := issued.2
  cases same with
  | parameter | reference => exact leaf
  | _ => trivial

def Renews (s t : Supply) : Prop := s ≤ t ∧ t.param = s.param ∧ t.source = s.source

theorem Renews.trans {u : Supply} (first : Renews s t) (next : Renews t u) : Renews s u :=
  ⟨le_trans first.1 next.1, next.2.1.trans first.2.1, next.2.2.trans first.2.2⟩

theorem Renews.node : Renews s { s with node := s.node + 1 } :=
  ⟨⟨Nat.le_succ _, Nat.le_refl _, Nat.le_refl _⟩, rfl, rfl⟩

theorem putIssued {p : Param} {item body r : Expr} {u : Supply} (put : PutsFrom s p item body r t) (start : u ≤ s)
    (item_ : item.Every (Issued u among)) (body_ : body.Every (Issued u among)) :
    Renews s t ∧ r.Every (Issued t among) := by
  induction body using partsInduction generalizing r s t with
  | step body ih =>
    rcases Pass.runLeads put with entered | ⟨a, v, w, n, enter, shape, along, numbered, left⟩
    · obtain ⟨same, rfl⟩ := Threaded.ofPure entered
      have replaced : r = item := by
        split at same
        · split at same <;> cases same
          rfl
        · cases same
      subst replaced
      exact ⟨⟨le_refl _, rfl, rfl⟩, everyMono item_ start fun _ known => known⟩
    · obtain ⟨_, rfl⟩ := Threaded.ofPure enter
      obtain ⟨rfl, rfl⟩ := Threaded.ofPure left
      -- a later part gives out nodes as well, so what was issued so far has to stay issued
      obtain ⟨renews, _, made⟩ := along.grows (I := Renews s) (S := fun v _ c => c.Every (Issued v among))
        ⟨le_refl _, rfl, rfl⟩ (fun later _ _ issued => everyMono issued later fun _ known => known)
        fun c inside v c' w before turns => by
          obtain ⟨after, issued⟩ := ih c inside turns (le_trans start before.1) (body_.part inside)
          exact ⟨before.trans after, after.1, issued⟩
      have given : Renews v w ∧ n.id < w.node := by
        rcases numbered with ⟨rfl, rfl⟩ | ⟨_, fresh⟩
        · exact ⟨⟨le_refl _, rfl, rfl⟩, (body_.here.mono (le_trans start renews.1) fun _ known => known).1⟩
        · obtain ⟨first, rfl⟩ := Build.leadsNode fresh
          exact ⟨.node, first ▸ Nat.lt_succ_self _⟩
      refine ⟨renews.trans given.1, foldReadEvery (everyIff.mpr ⟨?_, fun c' inside => ?_⟩)⟩
      · have later := le_trans start (le_trans renews.1 given.1.1)
        exact (body_.here.mono later fun _ known => known).rebuilt shape given.2
      · obtain ⟨c, _, issued⟩ := partFrom made inside
        exact everyMono issued given.1.1 fun _ known => known

end Expr

def Over (first : Supply) (source r : Source) : Prop := r = source ∨ r.id < first.source

namespace ResultOperator

/-- Operators whose expressions are over the source that the rows before them are known by, and the source by
which the rows are known that they leave. Later sources have greater identities. -/
inductive Stacked (upon : Source → Expr → Prop) (closed : Expr → Prop) :
    Source → List ResultOperator → Source → Prop where
  | nil {r : Source} : Stacked upon closed r [] r
  | group {r t : Source} {name : String} {id : Nat} {key element : Expr} {ops : List ResultOperator}
      (keyOver : upon r key) (elementOver : upon r element) (newer : r.id < id)
      (later : Stacked upon closed (groupSource name id key element) ops t) :
      Stacked upon closed r (.group name id key element :: ops) t
  | other {r t : Source} {op : ResultOperator} {ops : List ResultOperator} (single : op.source? = none)
      (count : ∀ n, op = .take n ∨ op = .skip n → closed n) (later : Stacked upon closed r ops t) :
      Stacked upon closed r (op :: ops) t

variable {upon further : Source → Expr → Prop} {closed : Expr → Prop} {r t u : Source} {ops ops' : List ResultOperator}

theorem Stacked.append (first : Stacked upon closed r ops t) (next : Stacked upon closed t ops' u) :
    Stacked upon closed r (ops ++ ops') u := by
  induction first with
  | nil => exact next
  | group keyOver elementOver newer _ ih => exact .group keyOver elementOver newer (ih next)
  | other single count _ ih => exact .other single count (ih next)

theorem Stacked.imp (stacked : Stacked upon closed r ops t) (wider : ∀ r e, upon r e → further r e) :
    Stacked further closed r ops t := by
  induction stacked with
  | nil => exact .nil
  | group keyOver elementOver newer _ ih => exact .group (wider _ _ keyOver) (wider _ _ elementOver) newer ih
  | other single count _ ih => exact .other single count ih

end ResultOperator

namespace Query
open SymbolicQuery.Expr ResultOperator

structure Layers (first : Supply) (q : Query) (item : Expr) (s : Supply) (last : Source) : Prop where
  start : first ≤ s
  source : first.source ≤ q.source.id
  origin : q.origin.Before first
  clauses : ∀ c ∈ q.clauses, ∀ e ∈ c.exprs, e.Every (Issued s (Over first q.source))
  selector : q.selector.Every (Issued s (Over first q.source))
  operators : Stacked (fun r e => e.Every (Issued s (Over first r))) (Before first) q.source q.operators last
  item : item.Every (Issued s (Over first last))
  given : last.id < s.source

variable {first s t : Supply} {q q' : Query} {item item' : Expr} {last : Source} {c : Call}

theorem Layers.later (layers : q.Layers first item s last) (later : s ≤ t) : q.Layers first item t last where
  start := le_trans layers.start later
  source := layers.source
  origin := layers.origin
  clauses c inside e member := everyMono (layers.clauses c inside e member) later fun _ known => known
  selector := everyMono layers.selector later fun _ known => known
  operators := layers.operators.imp fun _ _ issued => everyMono issued later fun _ known => known
  item := everyMono layers.item later fun _ known => known
  given := Nat.lt_of_lt_of_le layers.given later.2.2

theorem Layers.single (layers : q.Layers first item s last) (none : q.operators = []) : last = q.source := by
  have operators := layers.operators
  rw [none] at operators
  cases operators
  rfl

theorem Layers.addClause {clause : Clause} (layers : q.Layers first item s last) (none : q.operators = [])
    (issued : ∀ e ∈ clause.exprs, e.Every (Issued s (Over first last))) :
    (q.addClause clause).Layers first item s last where
  start := layers.start
  source := layers.source
  origin := layers.origin
  clauses c inside := by
    rcases List.mem_append.mp inside with before | added
    · exact layers.clauses c before
    · cases List.mem_singleton.mp added
      exact layers.single none ▸ issued
  selector := layers.selector
  operators := layers.operators
  item := layers.item
  given := layers.given

theorem Layers.project {r : Expr} (layers : q.Layers first item s last) (none : q.operators = [])
    (issued : r.Every (Issued s (Over first last))) : { q with selector := r }.Layers first r s last :=
  ⟨layers.start, layers.source, layers.origin, layers.clauses, layers.single none ▸ issued, layers.operators, issued,
    layers.given⟩

theorem Layers.addOther {op : ResultOperator} (layers : q.Layers first item s last) (single : op.source? = none)
    (count : ∀ n, op = .take n ∨ op = .skip n → n.Before first) : (q.addOperator op).Layers first item s last :=
  ⟨layers.start, layers.source, layers.origin, layers.clauses, layers.selector,
    layers.operators.append (.other single count .nil), layers.item, layers.given⟩

theorem Layers.addGroup {name : String} {key element : Expr} (layers : q.Layers first item s last)
    (keyIssued : key.Every (Issued s (Over first last))) (elementIssued : element.Every (Issued s (Over first last))) :
    (q.addOperator (.group name s.source key element)).Layers first
      (.reference s.node (groupSource name s.source key element)) ⟨s.node + 1, s.param, s.source + 1⟩
      (groupSource name s.source key element) := by
  have later : s ≤ ⟨s.node + 1, s.param, s.source + 1⟩ := ⟨Nat.le_succ _, Nat.le_refl _, Nat.le_succ _⟩
  have grown := layers.later later
  have known : ∀ {e : Expr}, e.Every (Issued s (Over first last)) → e.Every (Issued _ (Over first last)) :=
    fun issued => everyMono issued later fun _ known => known
  exact ⟨grown.start, grown.source, grown.origin, grown.clauses, grown.selector,
    grown.operators.append (.group (known keyIssued) (known elementIssued) layers.given .nil),
    issuedReference (Nat.lt_succ_self _) (.inl rfl), Nat.lt_succ_self _⟩

theorem joinsLayer (joins : c.Joins q item s q' item' t) (args : ∀ a ∈ c.args, a.Before first)
    (layers : q.Layers first item s last) : ∃ last', q'.Layers first item' t last' := by
  have put : ∀ {i p body r v w}, .lambda i [p] body ∈ c.args → item.PutsFrom v p body r w → s ≤ v →
      Renews v w ∧ r.Every (Issued w (Over first last)) := by
    intro i p body r v w inside put later
    have before : body.Before first := (args _ inside).part List.mem_cons_self
    exact putIssued put later layers.item (everyMono before layers.start fun _ old => .inr old)
  cases joins with
  | filter none put_ | sort none put_ | sortDescending none put_ =>
    obtain ⟨renews, issued⟩ := put List.mem_cons_self put_ (le_refl _)
    refine ⟨last, (layers.later renews.1).addClause none fun e inside => ?_⟩
    cases List.mem_singleton.mp inside
    exact issued
  | project none put_ =>
    obtain ⟨renews, issued⟩ := put List.mem_cons_self put_ (le_refl _)
    exact ⟨last, (layers.later renews.1).project none issued⟩
  | group put_ =>
    obtain ⟨renews, issued⟩ := put List.mem_cons_self put_ (le_refl _)
    have layers := layers.later renews.1
    exact ⟨_, layers.addGroup issued layers.item⟩
  | groupElements put_ put' =>
    obtain ⟨renews, issued⟩ := put List.mem_cons_self put_ (le_refl _)
    obtain ⟨renews', issued'⟩ := put (List.mem_cons_of_mem _ List.mem_cons_self) put' renews.1
    exact ⟨_, (layers.later (renews.trans renews').1).addGroup (everyMono issued renews'.1 fun _ known => known) issued'⟩
  | take | skip =>
    refine ⟨last, layers.addOther rfl fun n either => ?_⟩
    rcases either with same | same <;> cases same
    exact args _ List.mem_cons_self
  | distinct | count | first | firstOrNull =>
    exact ⟨last, layers.addOther rfl fun n either => by rcases either with h | h <;> cases h⟩

theorem JoinsAll.layer {calls : List Call} (joins : JoinsAll q item s calls q' item' t)
    (args : ∀ c ∈ calls, ∀ a ∈ c.args, a.Before first) (layers : q.Layers first item s last) :
    ∃ last', q'.Layers first item' t last' := by
  induction joins generalizing last with
  | nil => exact ⟨last, layers⟩
  | cons head _ ih =>
    obtain ⟨here, later⟩ := List.forall_mem_cons.mp args
    obtain ⟨last', layers⟩ := joinsLayer head here layers
    exact ih later layers

theorem assembleLayers {chain : Expr} {n n' : Nat} (before : chain.Before s)
    (h : leads (assemble chain) (n, s) q (n', t)) : ∃ item last, q.Layers s item t last := by
  obtain ⟨q₀, item, starts, source, selector, joins⟩ := assembleJoins h
  obtain ⟨root, args⟩ := unchainWithin chain
  have layers : q₀.Layers s (.reference (s.node + 1) q₀.source) ⟨s.node + 2, s.param, s.source + 1⟩ q₀.source := by
    refine ⟨⟨Nat.le_add_right _ _, Nat.le_refl _, Nat.le_succ _⟩, Nat.le_of_eq source.symm, ?_, fun c inside => ?_, ?_,
      ?_, ?_, ?_⟩
    · rw [starts.origin]
      exact fun n inside => before n (root n inside)
    · rw [starts.clauses] at inside
      cases inside
    · rw [selector]
      exact issuedReference (Nat.lt_add_of_pos_right Nat.two_pos) (.inl rfl)
    · rw [starts.operators]
      exact .nil
    · exact issuedReference (Nat.lt_succ_self _) (.inl rfl)
    · rw [source]
      exact Nat.lt_succ_self _
  obtain ⟨last, layers⟩ := joins.layer (fun c inside a argument n node => before n (args c inside a argument n node)) layers
  exact ⟨item, last, layers⟩

end Query

end SymbolicQuery
