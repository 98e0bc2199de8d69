import SymbolicQuery.Proofs.Written
import SymbolicQuery.Query.OfChain

/-! Chains that texts write. Every function in a chain is over the items that the call before it
leaves, and is typed over its parameter; the type of the chain follows call by call. -/
namespace SymbolicQuery
open Results

def FunctionOver (item : Ty) (p : Param) (body e : Expr) : Prop :=
  p.ty = item ∧ body.Written [p] ∧ ∃ i, e = .lambda i [p] body

namespace Call

inductive Reads (input item : Ty) : Call → Ty → Prop where
  | filter {p body e} (condition : FunctionOver item p body e) : Reads input item ⟨.filter, [e]⟩ input
  | sort {p body e} (key : FunctionOver item p body e) : Reads input item ⟨.sort, [e]⟩ input
  | sortDescending {p body e} (key : FunctionOver item p body e) :
      Reads input item ⟨.sortDescending, [e]⟩ input
  | project {p body e} (result : FunctionOver item p body e) :
      Reads input item ⟨.project, [e]⟩ (.sequence body.ty)
  | group {p body e} (key : FunctionOver item p body e) :
      Reads input item ⟨.group, [e]⟩ (.sequence (.grouping body.ty item))
  | groupElements {p body e q other f} (key : FunctionOver item p body e)
      (element : FunctionOver item q other f) :
      Reads input item ⟨.group, [e, f]⟩ (.sequence (.grouping body.ty other.ty))
  | distinct : Reads input item ⟨.distinct, []⟩ input
  | take {n} (count : n.Written []) : Reads input item ⟨.take, [n]⟩ input
  | skip {n} (count : n.Written []) : Reads input item ⟨.skip, [n]⟩ input
  | count : Reads input item ⟨.count, []⟩ .int
  | first : Reads input item ⟨.first, []⟩ item
  | firstOrNull : Reads input item ⟨.firstOrNull, []⟩ item

end Call

def Ty.itemType (t : Ty) : Ty := t.item?.getD .any

inductive Expr.Chained (root : Expr) : Expr → List Call → Prop where
  | root : Chained root root []
  | call {i t e c calls} (before : Chained root e calls) (reads : c.Reads e.ty e.ty.itemType t) :
      Chained root (.stageCall i t c.stage e c.args) (calls ++ [c])

namespace Reading
open SymbolicQuery.Expr Build
variable {scope : Scope}

def IsOver (item : Ty) (l : Lambda) : Prop :=
  ∃ p, l.params = [p] ∧ p.ty = item ∧ l.body.Written [p]

theorem lambdaIsOver {item : Ty} (untyped : scope.types = []) (outer : scope.params = []) :
    Gives scope (lambda item) (IsOver item) := by
  intro l h
  obtain ⟨p, params, ty, written⟩ := lambdaGives untyped l h
  exact ⟨p, params, ty, outer ▸ written⟩

theorem toExprGives {item : Ty} {l : Lambda} (upon : IsOver item l) :
    Gives scope (liftM l.toExpr) fun e => ∃ p, FunctionOver item p l.body e := by
  obtain ⟨p, params, ty, written⟩ := upon
  refine givesLift fun e made => ?_
  obtain ⟨i, _, last⟩ := ofBind made
  exact ⟨p, ty, written, i, params ▸ (ofPure last).symm⟩

theorem callArgumentsGive {input item : Ty} {stage : Stage} (untyped : scope.types = [])
    (outer : scope.params = []) : Gives scope (callArguments input item stage) fun r =>
      Call.Reads input item ⟨stage, r.1⟩ r.2 := by
  have function : Gives scope (lambda item) (IsOver item) := lambdaIsOver untyped outer
  have count : Gives scope expression (Written []) := outer ▸ expressionGives untyped
  cases stage with
  | filter =>
    exact givesBind function fun f upon => givesBind (toExprGives upon) fun e ⟨p, made⟩ =>
      givesPure (.filter made)
  | sort =>
    exact givesBind function fun f upon => givesBind (toExprGives upon) fun e ⟨p, made⟩ =>
      givesPure (.sort made)
  | sortDescending =>
    exact givesBind function fun f upon => givesBind (toExprGives upon) fun e ⟨p, made⟩ =>
      givesPure (.sortDescending made)
  | project =>
    exact givesBind function fun f upon => givesBind (toExprGives upon) fun e ⟨p, made⟩ =>
      givesPure (.project made)
  | group =>
    refine givesBind function fun key upon => givesThen fun more => ?_
    split
    · exact givesBind function fun element upon' => givesBind (toExprGives upon) fun e ⟨p, made⟩ =>
        givesBind (toExprGives upon') fun e' ⟨p', made'⟩ => givesPure (.groupElements made made')
    · exact givesBind (toExprGives upon) fun e ⟨p, made⟩ => givesPure (.group made)
  | distinct => exact givesPure .distinct
  | take => exact givesBind count fun n written => givesPure (.take written)
  | skip => exact givesBind count fun n written => givesPure (.skip written)
  | count => exact givesPure .count
  | first => exact givesPure .first
  | firstOrNull => exact givesPure .firstOrNull

theorem callGives {root input : Expr} {calls : List Call} (untyped : scope.types = [])
    (outer : scope.params = []) (chained : Chained root input calls) :
    Gives scope (call input) fun e => ∃ calls, Chained root e calls := by
  refine givesThen fun (name, position) => ?_
  dsimp only
  split
  · exact givesThrow
  · refine givesThen fun _ => givesBind (callArgumentsGive untyped outer) fun (args, ty) reads =>
      givesThen fun _ => givesBuild fun e made => ?_
    obtain ⟨_, _, made⟩ := ofBind made
    obtain ⟨i, rfl⟩ := freshYields made
    exact ⟨_, .call chained reads⟩

theorem chainGives {root : Expr} (untyped : scope.types = []) (outer : scope.params = []) :
    Gives scope (chain root) fun e => ∃ calls, Chained root e calls := by
  refine givesThen fun _ => givesBind (P := fun e => ∃ calls, Chained root e calls)
    (iterateGives ⟨[], .root⟩ ?_) fun e chained => givesThen fun _ => givesPure chained
  intro e before
  obtain ⟨calls, chained⟩ := before
  refine givesThen fun dot => ?_
  split
  · exact givesBind (callGives untyped outer chained) fun e' chained' =>
      givesPure fun e'' same => Option.some.inj same ▸ chained'
  · exact givesPure (by simp)

end Reading

namespace Expr
variable {root e : Expr} {calls : List Call}

theorem readChained {text : String} (h : yields (readChain [] root text) e) :
    ∃ calls, Chained root e calls :=
  Reading.allGives (P := fun e => ∃ calls, Chained root e calls) (Reading.chainGives rfl rfl) h

theorem Chained.unchain (chained : Chained root e calls) (start : root.unchain = (root, [])) :
    e.unchain = (root, calls) := by
  induction chained with
  | root => exact start
  | call _ _ ih =>
    unfold Expr.unchain
    rw [ih]

theorem Chained.nodes (chained : Chained root e calls) {c : Call} (inside : c ∈ calls) {a n : Expr}
    (argument : a ∈ c.args) (node : n ∈ a.nodes) : n ∈ e.nodes := by
  induction chained with
  | root => cases inside
  | @call i t e d calls before reads ih =>
    rw [nodesParts]
    refine List.mem_cons_of_mem _ (List.mem_flatMap.mpr ?_)
    rcases List.mem_append.mp inside with earlier | last
    · exact ⟨e, List.mem_cons_self, ih earlier⟩
    · cases List.mem_singleton.mp last
      exact ⟨a, List.mem_cons_of_mem _ argument, node⟩

end Expr

end SymbolicQuery
