import SymbolicQuery.Proofs.Chain
import SymbolicQuery.Proofs.Substitution
import SymbolicQuery.Proofs.Threading

/-! How a query is assembled. Each call of a chain adds one clause, selector or operator; its
functions are put over the current item. What holds of every assembled query follows by induction
on the calls. -/
namespace SymbolicQuery
open Results

def Expr.Puts (p : Param) (item body r : Expr) : Prop := yields ((Pass.putting p item).run body) r

def Expr.PutsFrom (s : Supply) (p : Param) (item body r : Expr) (t : Supply) : Prop :=
  leads ((Pass.putting p item).run body) s r t

theorem Expr.PutsFrom.puts {s t : Supply} {p : Param} {item body r : Expr} (put : PutsFrom s p item body r t) :
    item.Puts p body r := Threaded.yields put

theorem referenceYields {s : Source} {e : Expr} (h : yields (liftM (Build.reference s) : Build Expr) e) :
    e.OfSource s := by
  obtain ⟨i, _, last⟩ := ofBind (ofLiftT h)
  exact ⟨i, (ofPure last).symm⟩

def Clause.exprs : Clause → List Expr
  | filter predicate => [predicate]
  | sort keys => keys.map SortKey.key

namespace Call

/-- What a call does to a query over the items so far, from one supply to another: the query and the
description of its items. -/
inductive Joins (q : Query) (item : Expr) (s : Supply) : Call → Query → Expr → Supply → Prop where
  | filter {i p body r t} (first : q.operators = []) (put : item.PutsFrom s p body r t) :
      Joins q item s ⟨.filter, [.lambda i [p] body]⟩ (q.addClause (.filter r)) item t
  | sort {i p body r t} (first : q.operators = []) (put : item.PutsFrom s p body r t) :
      Joins q item s ⟨.sort, [.lambda i [p] body]⟩ (q.addClause (.sort [⟨r, false⟩])) item t
  | sortDescending {i p body r t} (first : q.operators = []) (put : item.PutsFrom s p body r t) :
      Joins q item s ⟨.sortDescending, [.lambda i [p] body]⟩ (q.addClause (.sort [⟨r, true⟩])) item t
  | project {i p body r t} (first : q.operators = []) (put : item.PutsFrom s p body r t) :
      Joins q item s ⟨.project, [.lambda i [p] body]⟩ { q with selector := r } r t
  | group {i p body key name t} (put : item.PutsFrom s p body key t) :
      Joins q item s ⟨.group, [.lambda i [p] body]⟩ (q.addOperator (.group name t.source key item))
        (.reference t.node (ResultOperator.groupSource name t.source key item))
        ⟨t.node + 1, t.param, t.source + 1⟩
  | groupElements {i p body key j p' body' element name t u} (put : item.PutsFrom s p body key t)
      (put' : item.PutsFrom t p' body' element u) :
      Joins q item s ⟨.group, [.lambda i [p] body, .lambda j [p'] body']⟩
        (q.addOperator (.group name u.source key element))
        (.reference u.node (ResultOperator.groupSource name u.source key element))
        ⟨u.node + 1, u.param, u.source + 1⟩
  | distinct : Joins q item s ⟨.distinct, []⟩ (q.addOperator .distinct) item s
  | take {n} : Joins q item s ⟨.take, [n]⟩ (q.addOperator (.take n)) item s
  | skip {n} : Joins q item s ⟨.skip, [n]⟩ (q.addOperator (.skip n)) item s
  | count : Joins q item s ⟨.count, []⟩ (q.addOperator .count) item s
  | first : Joins q item s ⟨.first, []⟩ (q.addOperator (.first false)) item s
  | firstOrNull : Joins q item s ⟨.firstOrNull, []⟩ (q.addOperator (.first true)) item s

theorem resolveLeads {c : Call} {k : Nat} {item r : Expr} {s t : Supply} (h : leads (c.resolve k item) s r t) :
    ∃ i p body, c.args[k]? = some (.lambda i [p] body) ∧ item.PutsFrom s p body r t := by
  obtain ⟨l, u, first, h⟩ := Threaded.ofBind h
  obtain ⟨taken, rfl⟩ := Threaded.ofExcept first
  unfold lambda at taken
  split at taken
  · rename_i found
    cases taken
    obtain ⟨e, argument, isLambda⟩ := Option.bind_eq_some_iff.mp found
    unfold Lambda.resolve at h
    split at h
    · rename_i p params
      obtain ⟨_, u, ensured, h⟩ := Threaded.ofBind h
      obtain ⟨_, rfl⟩ := Build.leadsEnsure ensured
      cases e with
      | lambda i ps body =>
        cases isLambda
        cases params
        exact ⟨i, p, body, argument, Threaded.ofLiftT h⟩
      | _ => cases isLambda
    · exact (Threaded.notThrow h).elim
  · cases taken

theorem argumentLeads {c : Call} {n : Expr} {s t : Supply} (h : leads c.argument s n t) : c.args = [n] ∧ s = t := by
  unfold argument at h
  split at h
  · rename_i args
    obtain ⟨rfl, rfl⟩ := Threaded.ofPure h
    exact ⟨args, rfl⟩
  · exact (Threaded.notThrow h).elim

inductive Adds (input : Ty) (q : Query) (item : Expr) : Call → Ty → Query → Expr → Prop where
  | filter {p body e r} (first : q.operators = []) (upon : FunctionOver input.itemType p body e)
      (put : item.Puts p body r) :
      Adds input q item ⟨.filter, [e]⟩ input (q.addClause (.filter r)) item
  | sort {p body e r} (first : q.operators = []) (upon : FunctionOver input.itemType p body e)
      (put : item.Puts p body r) :
      Adds input q item ⟨.sort, [e]⟩ input (q.addClause (.sort [⟨r, false⟩])) item
  | sortDescending {p body e r} (first : q.operators = [])
      (upon : FunctionOver input.itemType p body e) (put : item.Puts p body r) :
      Adds input q item ⟨.sortDescending, [e]⟩ input (q.addClause (.sort [⟨r, true⟩])) item
  | project {p body e r} (first : q.operators = []) (upon : FunctionOver input.itemType p body e)
      (put : item.Puts p body r) :
      Adds input q item ⟨.project, [e]⟩ (.sequence body.ty) { q with selector := r } r
  | group {p body e key name id i} (upon : FunctionOver input.itemType p body e)
      (put : item.Puts p body key) :
      Adds input q item ⟨.group, [e]⟩ (.sequence (.grouping body.ty input.itemType))
        (q.addOperator (.group name id key item))
        (.reference i (ResultOperator.groupSource name id key item))
  | groupElements {p body e key p' body' e' element name id i}
      (upon : FunctionOver input.itemType p body e) (put : item.Puts p body key)
      (upon' : FunctionOver input.itemType p' body' e') (put' : item.Puts p' body' element) :
      Adds input q item ⟨.group, [e, e']⟩ (.sequence (.grouping body.ty body'.ty))
        (q.addOperator (.group name id key element))
        (.reference i (ResultOperator.groupSource name id key element))
  | distinct : Adds input q item ⟨.distinct, []⟩ input (q.addOperator .distinct) item
  | take {n} (count : n.Written []) :
      Adds input q item ⟨.take, [n]⟩ input (q.addOperator (.take n)) item
  | skip {n} (count : n.Written []) :
      Adds input q item ⟨.skip, [n]⟩ input (q.addOperator (.skip n)) item
  | count : Adds input q item ⟨.count, []⟩ .int (q.addOperator .count) item
  | first : Adds input q item ⟨.first, []⟩ input.itemType (q.addOperator (.first false)) item
  | firstOrNull : Adds input q item ⟨.firstOrNull, []⟩ input.itemType (q.addOperator (.first true)) item

theorem onlyFunction {α : Type} {c : Call} {item : Expr} {s t : Supply} {rest : Expr → Build α} {a : α}
    (h : leads (do c.ensureArity [1]; let r ← c.resolve 0 item; rest r) s a t) :
    ∃ i p body r u, c.args = [.lambda i [p] body] ∧ item.PutsFrom s p body r u ∧ leads (rest r) u a t := by
  obtain ⟨_, _, arity, h⟩ := Threaded.ofBind h
  obtain ⟨one, rfl⟩ := Build.leadsEnsure arity
  obtain ⟨r, u, resolved, later⟩ := Threaded.ofBind h
  obtain ⟨i, p, body, found, put⟩ := resolveLeads resolved
  obtain ⟨stage, args⟩ := c
  match args with
  | [] => cases found
  | [e] =>
    cases found
    exact ⟨i, p, body, r, u, rfl, put, later⟩
  | _ :: _ :: _ => simp at one

theorem noArgument {α : Type} {c : Call} {s t : Supply} {made a : α}
    (h : leads (do c.ensureArity [0]; return made : Build α) s a t) : c.args = [] ∧ made = a ∧ s = t := by
  obtain ⟨_, _, arity, h⟩ := Threaded.ofBind h
  obtain ⟨zero, rfl⟩ := Build.leadsEnsure arity
  exact ⟨List.length_eq_zero_iff.mp (by simpa using zero), Threaded.ofPure h⟩

theorem onlyCount {α : Type} {c : Call} {s t : Supply} {make : Expr → Build ResultOperator} {op : Expr → ResultOperator}
    {result : ResultOperator → α} {a : α} (made : ∀ {n o s t}, leads (make n) s o t → op n = o ∧ s = t)
    (h : leads (do let n ← c.argument; let o ← make n; return result o : Build α) s a t) :
    ∃ n, c.args = [n] ∧ result (op n) = a ∧ s = t := by
  obtain ⟨n, _, taken, h⟩ := Threaded.ofBind h
  obtain ⟨same, rfl⟩ := argumentLeads taken
  obtain ⟨o, _, checked, h⟩ := Threaded.ofBind h
  obtain ⟨rfl, rfl⟩ := made checked
  exact ⟨n, same, Threaded.ofPure h⟩

theorem Joins.adds {q q' : Query} {item item' : Expr} {c : Call} {s u : Supply} {input t : Ty}
    (joins : c.Joins q item s q' item' u) (reads : c.Reads input input.itemType t) :
    c.Adds input q item t q' item' := by
  cases joins with
  | filter first put => cases reads with
    | filter upon =>
      obtain ⟨_, _, _, same⟩ := id upon
      cases same
      exact .filter first upon put.puts
  | sort first put => cases reads with
    | sort upon =>
      obtain ⟨_, _, _, same⟩ := id upon
      cases same
      exact .sort first upon put.puts
  | sortDescending first put => cases reads with
    | sortDescending upon =>
      obtain ⟨_, _, _, same⟩ := id upon
      cases same
      exact .sortDescending first upon put.puts
  | project first put => cases reads with
    | project upon =>
      obtain ⟨_, _, _, same⟩ := id upon
      cases same
      exact .project first upon put.puts
  | group put => cases reads with
    | group upon =>
      obtain ⟨_, _, _, same⟩ := id upon
      cases same
      exact .group upon put.puts
  | groupElements put put' => cases reads with
    | groupElements upon upon' =>
      obtain ⟨_, _, _, same⟩ := id upon
      cases same
      obtain ⟨_, _, _, same⟩ := id upon'
      cases same
      exact .groupElements upon put.puts upon' put'.puts
  | distinct => cases reads; exact .distinct
  | take => cases reads with
    | take count => exact .take count
  | skip => cases reads with
    | skip count => exact .skip count
  | count => cases reads; exact .count
  | first => cases reads; exact .first
  | firstOrNull => cases reads; exact .firstOrNull

end Call

namespace Query
variable {root chain item item' : Expr} {q q' : Query} {c : Call} {calls : List Call} {input t : Ty}

theorem groupLeads {name : String} {key element : Expr} {s t : Supply}
    (h : leads (do
      let id ← freshSource
      let next ← Build.reference (ResultOperator.groupSource name id key element)
      return (q.addOperator (.group name id key element), next) : Build (Query × Expr)) s (q', item') t) :
    q' = q.addOperator (.group name s.source key element) ∧
      item' = .reference s.node (ResultOperator.groupSource name s.source key element) ∧
      t = ⟨s.node + 1, s.param, s.source + 1⟩ := by
  obtain ⟨id, _, numbered, h⟩ := Threaded.ofBind h
  obtain ⟨rfl, rfl⟩ := Build.leadsSource (Threaded.ofLiftT numbered)
  obtain ⟨next, _, referred, h⟩ := Threaded.ofBind h
  obtain ⟨rfl, rfl⟩ := Build.leadsReference (Threaded.ofLiftT referred)
  obtain ⟨made, rfl⟩ := Threaded.ofPure h
  cases made
  exact ⟨rfl, rfl, rfl⟩

theorem groupJoins {name : String} {s t : Supply} {args : List Expr}
    (h : leads (do
      let c : Call := ⟨.group, args⟩
      c.ensureArity [1, 2]
      let key ← c.resolve 0 item
      let element ← if c.args.length = 2 then c.resolve 1 item else pure item
      let id ← freshSource
      let next ← Build.reference (ResultOperator.groupSource name id key element)
      return (q.addOperator (.group name id key element), next) : Build (Query × Expr)) s (q', item') t) :
    Call.Joins q item s ⟨.group, args⟩ q' item' t := by
  obtain ⟨_, _, arity, h⟩ := Threaded.ofBind h
  obtain ⟨allowed, rfl⟩ := Build.leadsEnsure arity
  obtain ⟨key, u, resolved, h⟩ := Threaded.ofBind h
  obtain ⟨i, p, body, found, put⟩ := Call.resolveLeads resolved
  dsimp only at h
  split at h
  · rename_i two
    obtain ⟨element, v, resolved', h⟩ := Threaded.ofBind h
    obtain ⟨j, p', body', found', put'⟩ := Call.resolveLeads resolved'
    obtain ⟨rfl, rfl, rfl⟩ := groupLeads h
    match args with
    | [e, e'] =>
      cases found
      cases found'
      exact .groupElements put put'
    | [] | [_] | _ :: _ :: _ :: _ => simp at two
  · rename_i other
    obtain ⟨element, v, same, h⟩ := Threaded.ofBind h
    obtain ⟨rfl, rfl⟩ := Threaded.ofPure same
    obtain ⟨rfl, rfl, rfl⟩ := groupLeads h
    match args with
    | [e] =>
      cases found
      exact .group put
    | [_, _] => exact absurd rfl other
    | [] | _ :: _ :: _ :: _ => simp at allowed

theorem addCallJoins {name : String} {s t : Supply} (h : leads (q.addCall item name c) s (q', item') t) :
    c.Joins q item s q' item' t := by
  obtain ⟨_, _, ensured, h⟩ := Threaded.ofBind h
  obtain ⟨operators, rfl⟩ := Build.leadsEnsure ensured
  have first : c.isClause = true → q.operators = [] := by
    intro clause
    rw [clause] at operators
    exact List.isEmpty_iff.mp operators
  -- a check that follows a step leaves what the step has made
  have checked : ∀ {condition : Bool} {error : QueryError} {α : Type} {a b : α} {s t : Supply},
      leads (do Build.ensure condition error; return a : Build α) s b t → a = b ∧ s = t := by
    intro condition error α a b s t h
    obtain ⟨_, _, ensured, made⟩ := Threaded.ofBind h
    obtain ⟨_, rfl⟩ := Build.leadsEnsure ensured
    exact Threaded.ofPure made
  obtain ⟨stage, args⟩ := c
  cases stage with
  | filter =>
    obtain ⟨i, p, body, r, u, same, put, h⟩ := Call.onlyFunction h
    obtain ⟨clause, _, filtered, h⟩ := Threaded.ofBind h
    obtain ⟨rfl, rfl⟩ := checked filtered
    obtain ⟨made, rfl⟩ := Threaded.ofPure h
    cases made
    cases same
    exact .filter (first rfl) put
  | sort =>
    obtain ⟨i, p, body, r, u, same, put, h⟩ := Call.onlyFunction h
    obtain ⟨made, rfl⟩ := Threaded.ofPure h
    cases made
    cases same
    exact .sort (first rfl) put
  | sortDescending =>
    obtain ⟨i, p, body, r, u, same, put, h⟩ := Call.onlyFunction h
    obtain ⟨made, rfl⟩ := Threaded.ofPure h
    cases made
    cases same
    exact .sortDescending (first rfl) put
  | project =>
    obtain ⟨i, p, body, r, u, same, put, h⟩ := Call.onlyFunction h
    obtain ⟨made, rfl⟩ := Threaded.ofPure h
    cases made
    cases same
    exact .project (first rfl) put
  | group => exact groupJoins h
  | distinct =>
    obtain ⟨same, made, rfl⟩ := Call.noArgument h
    cases made
    cases same
    exact .distinct
  | take =>
    obtain ⟨n, same, made, rfl⟩ := Call.onlyCount checked h
    cases made
    cases same
    exact .take
  | skip =>
    obtain ⟨n, same, made, rfl⟩ := Call.onlyCount checked h
    cases made
    cases same
    exact .skip
  | count =>
    obtain ⟨same, made, rfl⟩ := Call.noArgument h
    cases made
    cases same
    exact .count
  | first =>
    obtain ⟨same, made, rfl⟩ := Call.noArgument h
    cases made
    cases same
    exact .first
  | firstOrNull =>
    obtain ⟨same, made, rfl⟩ := Call.noArgument h
    cases made
    cases same
    exact .firstOrNull

structure Starts (root : Expr) (q : Query) : Prop where
  itemType : itemTypeOf root.ty = .ok q.source.itemType
  origin : q.origin = root
  clauses : q.clauses = []
  selector : q.selector.OfSource q.source
  operators : q.operators = []

theorem startLeads {name : String} {s t : Supply} (h : leads (start name root) s q t) :
    Starts root q ∧ q.source.id = s.source ∧ q.selector = .reference s.node q.source ∧
      t = ⟨s.node + 1, s.param, s.source + 1⟩ := by
  obtain ⟨ty, _, named, h⟩ := Threaded.ofBind h
  obtain ⟨typed, rfl⟩ := Threaded.ofExcept named
  obtain ⟨source, u, made, h⟩ := Threaded.ofBind h
  obtain ⟨_, _, numbered, made⟩ := Threaded.ofBind (Threaded.ofLiftT made)
  obtain ⟨rfl, rfl⟩ := Build.leadsSource numbered
  obtain ⟨rfl, rfl⟩ := Threaded.ofPure made
  obtain ⟨_, _, referred, h⟩ := Threaded.ofBind h
  obtain ⟨rfl, rfl⟩ := Build.leadsReference (Threaded.ofLiftT referred)
  obtain ⟨rfl, rfl⟩ := Threaded.ofPure h
  exact ⟨⟨typed, rfl, rfl, ⟨_, rfl⟩, rfl⟩, rfl, rfl, rfl⟩

inductive JoinsAll : Query → Expr → Supply → List Call → Query → Expr → Supply → Prop where
  | nil {q : Query} {item : Expr} {s : Supply} : JoinsAll q item s [] q item s
  | cons {q q₁ q' : Query} {item item₁ item' : Expr} {s s₁ t : Supply} {c : Call} {rest : List Call}
      (head : c.Joins q item s q₁ item₁ s₁) (later : JoinsAll q₁ item₁ s₁ rest q' item' t) :
      JoinsAll q item s (c :: rest) q' item' t

theorem builtLeads {α : Type} {work : Build α} {a : α} {n n' : Nat} {s t : Supply}
    (h : leads (built work) (n, s) a (n', t)) : leads work s a t := (Threaded.ofLift (m := Fresh) h).2

theorem nameLeads {args : List Expr} {a : String} {n n' : Nat} {s t : Supply}
    (h : leads (named (Naming.itemName args)) (n, s) a (n', t)) : s = t := by
  have h := Threaded.ofLiftT (m := Naming) h
  split at h
  · obtain ⟨_, same⟩ := Threaded.ofPure h
    cases same
    rfl
  · cases h
    rfl

theorem addCallsJoin {n n' : Nat} {s t : Supply} (h : leads (addCalls q item calls) (n, s) q' (n', t)) :
    ∃ item', JoinsAll q item s calls q' item' t := by
  induction calls generalizing q item n s with
  | nil =>
    obtain ⟨rfl, same⟩ := Threaded.ofPure h
    cases same
    exact ⟨item, .nil⟩
  | cons c rest ih =>
    obtain ⟨name, ⟨n₁, s₁⟩, made, h⟩ := Threaded.ofBind h
    obtain ⟨⟨q₁, item₁⟩, ⟨n₂, s₂⟩, added, h⟩ := Threaded.ofBind h
    obtain ⟨item', later⟩ := ih h
    cases nameLeads made
    exact ⟨item', .cons (addCallJoins (builtLeads added)) later⟩

inductive Built (root : Expr) : List Call → Ty → Query → Expr → Prop where
  | start {q : Query} {item : Expr} (starts : Starts root q) (upon : item.OfSource q.source) :
      Built root [] root.ty q item
  | call {calls : List Call} {input t : Ty} {q q' : Query} {item item' : Expr} {c : Call} (before : Built root calls input q item)
      (adds : c.Adds input q item t q' item') : Built root (calls ++ [c]) t q' item'

inductive ReadsAll : Ty → List Call → Ty → Prop where
  | nil {t : Ty} : ReadsAll t [] t
  | cons {input t last : Ty} {c : Call} {rest : List Call} (reads : c.Reads input input.itemType t) (later : ReadsAll t rest last) :
      ReadsAll input (c :: rest) last

theorem ReadsAll.snoc (all : ReadsAll input calls t) {t' : Ty} (reads : c.Reads t t.itemType t') :
    ReadsAll input (calls ++ [c]) t' := by
  induction all with
  | nil => exact .cons reads .nil
  | cons head _ ih => exact .cons head (ih reads)

theorem chainedReads (chained : root.Chained chain calls) : ReadsAll root.ty calls chain.ty := by
  induction chained with
  | root => exact .nil
  | call _ reads ih => exact ih.snoc reads

theorem JoinsAll.built {before : List Call} {s u : Supply} (joins : JoinsAll q item s calls q' item' u)
    (start : Built root before input q item) (reads : ReadsAll input calls t) :
    Built root (before ++ calls) t q' item' := by
  induction joins generalizing before input with
  | nil =>
    cases reads
    simpa using start
  | cons head _ ih => cases reads with
    | cons here rest => simpa using ih (.call start (head.adds here)) rest

theorem addsOrigin (adds : c.Adds input q item t q' item') :
    q'.origin = q.origin ∧ q'.source = q.source := by
  cases adds <;> exact ⟨rfl, rfl⟩

theorem Built.origin (built : Built root calls t q item) :
    q.origin = root ∧ itemTypeOf root.ty = .ok q.source.itemType := by
  induction built with
  | start starts => exact ⟨starts.origin, starts.itemType⟩
  | call _ adds ih =>
    obtain ⟨origin, source⟩ := addsOrigin adds
    exact ⟨origin.trans ih.1, by rw [source]; exact ih.2⟩

theorem Built.last (built : Built root (calls ++ [c]) t q' item') :
    ∃ input q item, Built root calls input q item ∧ c.Adds input q item t q' item' := by
  generalize all : calls ++ [c] = whole at built
  cases built with
  | start => simp at all
  | call before adds =>
    obtain ⟨rfl, same⟩ := List.append_inj' all rfl
    cases same
    exact ⟨_, _, _, before, adds⟩

theorem assembleJoins {n n' : Nat} {s t : Supply} (h : leads (assemble chain) (n, s) q (n', t)) :
    ∃ q₀ item, Starts chain.unchain.1 q₀ ∧ q₀.source.id = s.source ∧
      q₀.selector = .reference s.node q₀.source ∧
      JoinsAll q₀ (.reference (s.node + 1) q₀.source) ⟨s.node + 2, s.param, s.source + 1⟩ chain.unchain.2 q
        item t := by
  obtain ⟨name, ⟨_, _⟩, made, h⟩ := Threaded.ofBind h
  cases nameLeads made
  obtain ⟨q₀, ⟨_, _⟩, started, h⟩ := Threaded.ofBind h
  obtain ⟨starts, source, selector, rfl⟩ := startLeads (builtLeads started)
  obtain ⟨start, ⟨_, _⟩, referred, h⟩ := Threaded.ofBind h
  obtain ⟨rfl, rfl⟩ := Build.leadsReference (Threaded.ofLiftT (builtLeads referred))
  obtain ⟨item, joins⟩ := addCallsJoin h
  exact ⟨q₀, item, starts, source, selector, joins⟩

theorem unchainWithin (chain : Expr) : chain.unchain.1.Every (· ∈ chain.nodes) ∧
    ∀ c ∈ chain.unchain.2, ∀ a ∈ c.args, a.Every (· ∈ chain.nodes) := by
  induction chain using Expr.partsInduction with
  | step chain ih =>
    cases chain with
    | stageCall i ty stage input args =>
      have below : ∀ {n}, n ∈ input.nodes → n ∈ (Expr.stageCall i ty stage input args).nodes := fun inside =>
        Expr.memNodes.mpr (.inr ⟨input, List.mem_cons_self, inside⟩)
      obtain ⟨root, calls⟩ := ih input List.mem_cons_self
      refine ⟨fun n inside => below (root n inside), fun c inside a argument n node => ?_⟩
      rcases List.mem_append.mp inside with before | last
      · exact below (calls c before a argument n node)
      · cases List.mem_singleton.mp last
        exact Expr.memNodes.mpr (.inr ⟨a, List.mem_cons_of_mem _ argument, node⟩)
    | _ => exact ⟨fun n inside => inside, fun c none => by cases none⟩

theorem ofChainAssembles {s t : Supply} (h : leads (ofChain chain) s q t) :
    ∃ n, leads (assemble chain) (0, s) q (n, t) := by
  obtain ⟨⟨r, n⟩, u, assembled, same⟩ := Threaded.ofBind (m := Fresh) h
  obtain ⟨rfl, rfl⟩ := Threaded.ofPure same
  exact ⟨n, assembled⟩

theorem ofChainBuilt (chained : root.Chained chain calls) (bare : root.unchain = (root, []))
    (h : yields (ofChain chain) q) : ∃ item, Built root calls chain.ty q item := by
  obtain ⟨s, t, h⟩ := Threaded.yielded.mp h
  obtain ⟨n, assembled⟩ := ofChainAssembles h
  obtain ⟨q₀, item, starts, _, _, joins⟩ := assembleJoins assembled
  rw [chained.unchain bare] at starts joins
  exact ⟨item, joins.built (.start starts ⟨_, rfl⟩) (chainedReads chained)⟩

end Query

end SymbolicQuery
