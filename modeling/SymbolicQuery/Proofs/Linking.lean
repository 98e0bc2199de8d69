import SymbolicQuery.Proofs.Layering

/-! Types along a chain. Whatever object types a text may name, the type of a chain follows from its calls one after
another. An expression that is put for a parameter leaves the type of the body as it is, unless it folds a read of a
member that was given an expression of another type. -/
namespace SymbolicQuery
open Results

namespace Expr
variable {read : Member → Prop} {e n r item body : Expr} {p : Param}

def stored : Expr → List (Member × Expr)
  | .construct _ _ members args => members.zip args
  | .populate _ _ _ bindings => bindings.filterMap fun
    | .assign m e => some (m, e)
    | .collect _ _ => none
  | _ => []

def readMember? : Expr → Option Member
  | .access _ _ m | .getter _ _ m => some m
  | _ => none

/-- A node that reads members of some only, and that gives those expressions of their types. -/
structure Faithful (read : Member → Prop) (n : Expr) : Prop where
  reads {m : Member} : n.readMember? = some m → read m
  stores {m : Member} {e : Expr} : (m, e) ∈ n.stored → read m → e.ty = m.ty

theorem storedAlong (same : Rebuilt (fun c c' => c'.ty = c.ty) e n) :
    List.Forall₂ (fun f f' => f'.1 = f.1 ∧ f'.2.ty = f.2.ty) e.stored n.stored := by
  cases same with
  | @construct _ _ _ ms _ _ args =>
    unfold stored
    induction args generalizing ms with
    | nil => cases ms <;> exact .nil
    | cons head _ ih => cases ms with
      | nil => exact .nil
      | cons m ms => exact .cons ⟨rfl, head⟩ ih
  | populate base bindings =>
    unfold stored
    induction bindings with
    | nil => exact .nil
    | cons head _ ih => cases head with
      | assign value => exact .cons ⟨rfl, value⟩ ih
      | collect => exact ih
  | _ => exact .nil

theorem Faithful.rebuilt (faithful : e.Faithful read) (same : Rebuilt (fun c c' => c'.ty = c.ty) e n) :
    n.Faithful read where
  reads known := by
    have reading : n.readMember? = e.readMember? := by cases same <;> rfl
    exact faithful.reads (reading ▸ known)
  stores inside known := by
    obtain ⟨⟨m, e⟩, before, rfl, ty⟩ := partFrom (storedAlong same) inside
    exact ty.trans (faithful.stores before known)

theorem argumentStored {o : Expr} {m : Member} (found : o.argumentFor? m = some e) : (m, e) ∈ o.stored := by
  rcases argumentPlace found with ⟨i, t, ms, es, rfl, inside⟩ | ⟨i, t, base, bs, rfl, inside⟩
  · exact inside
  · exact List.mem_filterMap.mpr ⟨_, inside, rfl⟩

theorem foldReadTy (faithful : n.Every (Faithful read)) : n.foldRead.ty = n.ty := by
  rcases foldReadCases n with same | ⟨i, o, m, arg, reads, found, folded⟩
  · rw [same]
  · have known : read m := faithful.here.reads (by rcases reads with rfl | rfl <;> rfl)
    have object : o.Every (Faithful read) :=
      faithful.part (by rcases reads with rfl | rfl <;> exact List.mem_cons_self)
    rw [folded, object.here.stores (argumentStored found) known]
    rcases reads with rfl | rfl <;> rfl

theorem putTyped (put : item.Puts p body r) (ty : item.ty = p.ty) (upon : item.Every (Faithful read))
    (faithful : body.Every (Faithful read)) : r.Every (Faithful read) ∧ r.ty = body.ty := by
  induction body using partsInduction generalizing r with
  | step body ih =>
    rcases puttingStep put with ⟨⟨i, rfl⟩, rfl⟩ | ⟨_, n, rebuilt, rfl⟩
    · exact ⟨upon, ty⟩
    · have made := rebuilt.mono fun c inside c' put => ih c inside put (faithful.part inside)
      have types : Rebuilt (fun c c' => c'.ty = c.ty) body n := made.mono fun _ _ _ both => both.2
      have every : n.Every (Faithful read) := by
        refine everyIff.mpr ⟨faithful.here.rebuilt types, fun c' inside => ?_⟩
        obtain ⟨_, _, here, _⟩ := partFrom made.parts inside
        exact here
      exact ⟨foldReadEvery every, (foldReadTy every).trans types.ty⟩

theorem Written.faithful {params : List Param} (written : e.Written params) :
    e.Every (Faithful fun _ => True) := by
  refine fun n inside => ⟨fun _ => trivial, fun {m e} stores _ => ?_⟩
  cases written n inside with
  | construct each => exact ((List.forall₂_iff_zip.mp each).2 stores).symm
  | _ => cases stores

end Expr

def FunctionOf (item : Ty) (body e : Expr) : Prop := ∃ i p, e = .lambda i [p] body ∧ p.ty = item

namespace Call

inductive Types (input : Ty) : Call → Ty → Prop where
  | filter {body e} (condition : FunctionOf input.itemType body e) : Types input ⟨.filter, [e]⟩ input
  | sort {body e} (key : FunctionOf input.itemType body e) : Types input ⟨.sort, [e]⟩ input
  | sortDescending {body e} (key : FunctionOf input.itemType body e) : Types input ⟨.sortDescending, [e]⟩ input
  | project {body e} (result : FunctionOf input.itemType body e) :
      Types input ⟨.project, [e]⟩ (.sequence body.ty)
  | group {body e} (key : FunctionOf input.itemType body e) :
      Types input ⟨.group, [e]⟩ (.sequence (.grouping body.ty input.itemType))
  | groupElements {body e other f} (key : FunctionOf input.itemType body e)
      (element : FunctionOf input.itemType other f) :
      Types input ⟨.group, [e, f]⟩ (.sequence (.grouping body.ty other.ty))
  | distinct : Types input ⟨.distinct, []⟩ input
  | take {n} : Types input ⟨.take, [n]⟩ input
  | skip {n} : Types input ⟨.skip, [n]⟩ input
  | count : Types input ⟨.count, []⟩ .int
  | first : Types input ⟨.first, []⟩ input.itemType
  | firstOrNull : Types input ⟨.firstOrNull, []⟩ input.itemType

def IsSingle (c : Call) : Prop := c.stage = .count ∨ c.stage = .first ∨ c.stage = .firstOrNull

instance (c : Call) : Decidable c.IsSingle := inferInstanceAs (Decidable (_ ∨ _ ∨ _))

def SingleLast (calls : List Call) : Prop :=
  ∀ before c next after, calls = before ++ c :: next :: after → ¬ c.IsSingle

theorem SingleLast.many {calls : List Call} {last : Call} (single : SingleLast (calls ++ [last])) :
    ∀ c ∈ calls, ¬ c.IsSingle := by
  intro c inside
  obtain ⟨before, after, rfl⟩ := List.append_of_mem inside
  cases after with
  | nil => exact single before c last [] (by simp)
  | cons next rest => exact single before c next (rest ++ [last]) (by simp)

def nodes (calls : List Call) : List Expr := calls.flatMap fun c => c.args.flatMap Expr.nodes

def Honest (calls : List Call) : Prop := ∀ n ∈ nodes calls, ∀ f ∈ n.stored,
  (∃ k ∈ nodes calls, k.readMember? = some f.1) → f.2.ty = f.1.ty

instance {calls : List Call} : Decidable (Honest calls) :=
  inferInstanceAs (Decidable (∀ n ∈ nodes calls, ∀ f ∈ n.stored, (∃ k ∈ nodes calls, _) → _))

theorem Honest.faithful {calls : List Call} (honest : Honest calls) {c : Call} (inside : c ∈ calls) {a : Expr}
    (argument : a ∈ c.args) : a.Every (Expr.Faithful fun m => ∃ k ∈ nodes calls, k.readMember? = some m) := by
  intro n node
  have among : n ∈ nodes calls := List.mem_flatMap.mpr ⟨c, inside, List.mem_flatMap.mpr ⟨a, argument, node⟩⟩
  exact ⟨fun known => ⟨n, among, known⟩, fun stores => honest n among _ stores⟩

end Call

namespace Expr
variable {root base e : Expr} {calls : List Call}

inductive Extends (root : Expr) : Expr → Prop where
  | root : Extends root root
  | call {i t e} {c : Call} (before : Extends root e) (types : c.Types e.ty t) :
      Extends root (.stageCall i t c.stage e c.args)

def Linked (e : Expr) : Prop := ∃ base : Expr, base.unchain.2 = [] ∧ base.Extends e

theorem Extends.trans {e' : Expr} (first : base.Extends e) (next : e.Extends e') : base.Extends e' := by
  induction next with
  | root => exact first
  | call _ types ih => exact .call ih types

theorem callUnchain {i : Nat} {t : Ty} {c : Call} :
    (Expr.stageCall i t c.stage e c.args).unchain = (e.unchain.1, e.unchain.2 ++ [c]) := rfl

theorem bareUnchain (bare : root.unchain.2 = []) : root.unchain = (root, []) := by
  cases root with
  | stageCall i t stage e args => exact absurd bare (List.append_ne_nil_of_right_ne_nil _ (List.cons_ne_nil _ _))
  | _ => rfl

theorem Extends.unchainRoot (extends_ : base.Extends e) (bare : base.unchain.2 = []) : e.unchain.1 = base := by
  induction extends_ with
  | root => exact congrArg Prod.fst (bareUnchain bare)
  | call _ _ ih => exact ih

theorem Extends.part (extends_ : base.Extends e) (bare : base.unchain.2 = []) {before after : List Call}
    (split : e.unchain.2 = before ++ after) : ∃ e' ∈ e.nodes, base.Extends e' ∧ e'.unchain = (e.unchain.1, before) := by
  induction extends_ generalizing after with
  | root =>
    obtain ⟨rfl, rfl⟩ := List.append_eq_nil_iff.mp (split.symm.trans bare)
    exact ⟨base, selfNode base, .root, Prod.ext rfl bare⟩
  | @call i t e c earlier types ih =>
    rcases List.eq_nil_or_concat after with rfl | ⟨rest, last, rfl⟩
    · rw [List.append_nil] at split
      exact ⟨_, selfNode _, .call earlier types, Prod.ext rfl split⟩
    · rw [callUnchain, List.concat_eq_append, ← List.append_assoc] at split
      obtain ⟨same, _⟩ := List.append_inj' split rfl
      obtain ⟨e', inside, found, calls⟩ := ih same
      exact ⟨e', memNodes.mpr (.inr ⟨e, List.mem_cons_self, inside⟩), found, calls⟩

end Expr

namespace Reading
open SymbolicQuery.Expr Build
variable {scope : Scope} {item : Ty}

theorem lambdaParam : Gives scope (lambda item) fun l => ∃ p, l.params = [p] ∧ p.ty = item := by
  refine givesThen fun (name, position) => givesThen fun _ => ?_
  refine givesBind (P := fun p => p.ty = item) (givesLift fun p made => ?_) fun p same => ?_
  · obtain ⟨i, _, last⟩ := ofBind made
    cases ofPure last
    rfl
  · exact givesThen fun body => givesPure ⟨p, rfl, same⟩

theorem toExprFunction {l : Lambda} (param : ∃ p, l.params = [p] ∧ p.ty = item) :
    Gives scope (liftM l.toExpr) (FunctionOf item l.body) := by
  obtain ⟨p, params, ty⟩ := param
  refine givesLift fun e made => ?_
  obtain ⟨i, _, last⟩ := ofBind made
  exact ⟨i, p, params ▸ (ofPure last).symm, ty⟩

theorem callArgumentsType {input : Ty} {stage : Stage} : Gives scope (callArguments input input.itemType stage) fun r =>
    Call.Types input ⟨stage, r.1⟩ r.2 := by
  have function : Gives scope (lambda input.itemType) _ := lambdaParam
  cases stage with
  | filter => exact givesBind function fun f param => givesBind (toExprFunction param) fun e made => givesPure (.filter made)
  | sort => exact givesBind function fun f param => givesBind (toExprFunction param) fun e made => givesPure (.sort made)
  | sortDescending =>
    exact givesBind function fun f param => givesBind (toExprFunction param) fun e made => givesPure (.sortDescending made)
  | project =>
    exact givesBind function fun f param => givesBind (toExprFunction param) fun e made => givesPure (.project made)
  | group =>
    refine givesBind function fun key param => givesThen fun more => ?_
    split
    · exact givesBind function fun element param' => givesBind (toExprFunction param) fun e made =>
        givesBind (toExprFunction param') fun e' made' => givesPure (.groupElements made made')
    · exact givesBind (toExprFunction param) fun e made => givesPure (.group made)
  | distinct => exact givesPure .distinct
  | take => exact givesThen fun n => givesPure .take
  | skip => exact givesThen fun n => givesPure .skip
  | count => exact givesPure .count
  | first => exact givesPure .first
  | firstOrNull => exact givesPure .firstOrNull

theorem callExtends {root input : Expr} (before : root.Extends input) : Gives scope (call input) root.Extends := by
  refine givesThen fun (name, position) => ?_
  dsimp only
  split
  · exact givesThrow
  · refine givesThen fun _ => givesBind callArgumentsType fun (args, ty) types => givesThen fun _ => givesBuild fun e made => ?_
    obtain ⟨_, _, made⟩ := ofBind made
    obtain ⟨i, rfl⟩ := freshYields made
    exact .call before types

theorem chainExtends {root : Expr} : Gives scope (chain root) root.Extends := by
  refine givesThen fun _ => givesBind (P := root.Extends) (iterateGives .root ?_) fun e extends_ =>
    givesThen fun _ => givesPure extends_
  intro e before
  refine givesThen fun dot => ?_
  split
  · exact givesBind (callExtends before) fun e' after => givesPure fun e'' same => Option.some.inj same ▸ after
  · exact givesPure (by simp)

end Reading

namespace Expr
variable {root chain : Expr} {text : String}

theorem readExtends {types : List ObjectType} (h : yields (readChain types root text) chain) : root.Extends chain :=
  Reading.allGives Reading.chainExtends h

theorem functionFaithful {item : Ty} {p : Param} {body e : Expr} (upon : FunctionOver item p body e) :
    e.Every (Faithful fun _ => True) := by
  obtain ⟨_, written, i, rfl⟩ := upon
  refine everyIff.mpr ⟨⟨fun _ => trivial, fun none => by cases none⟩, fun c' part => ?_⟩
  cases List.mem_singleton.mp part
  exact written.faithful

theorem readsFaithful {input item t : Ty} {c : Call} (reads : c.Reads input item t) :
    ∀ a ∈ c.args, a.Every (Faithful fun _ => True) := by
  cases reads with
  | filter upon | sort upon | sortDescending upon | project upon | group upon =>
    exact List.forall_mem_singleton.mpr (functionFaithful upon)
  | groupElements upon upon' =>
    exact List.forall_mem_cons.mpr ⟨functionFaithful upon, List.forall_mem_singleton.mpr (functionFaithful upon')⟩
  | take count | skip count => exact List.forall_mem_singleton.mpr count.faithful
  | distinct | count | first | firstOrNull => exact fun a none => by cases none

theorem readFaithful (bare : root.unchain.2 = []) (h : yields (readChain [] root text) chain) :
    ∀ c ∈ chain.unchain.2, ∀ a ∈ c.args, a.Every (Faithful fun _ => True) := by
  obtain ⟨calls, chained⟩ := readChained h
  rw [chained.unchain (bareUnchain bare)]
  clear h
  induction chained with
  | root => exact fun c none => by cases none
  | call _ reads ih =>
    intro c inside
    rcases List.mem_append.mp inside with before | last
    · exact ih c before
    · cases List.mem_singleton.mp last
      exact readsFaithful reads

end Expr

end SymbolicQuery
