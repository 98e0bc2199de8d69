import SymbolicQuery.Query

/-! The query of a chain of calls. Function arguments are over the items that the calls before
them leave; in the query they are over its sources. -/
namespace SymbolicQuery

structure Call where
  stage : Stage
  args : List Expr

def Expr.unchain : Expr → Expr × List Call
  | .stageCall _ _ stage input args =>
    let (root, calls) := input.unchain
    (root, calls ++ [⟨stage, args⟩])
  | e => (e, [])

abbrev Naming := StateT Nat Fresh

namespace Naming

def generate : Naming String :=
  modifyGet fun n => ("<generated>_" ++ toString n, n + 1)

def itemName (args : List Expr) : Naming String :=
  match (args.findSome? Expr.asLambda?).bind (·.params.head?) with
  | some p => pure p.name
  | none => generate

end Naming

namespace Call

def lambda (c : Call) (index : Nat) : Except QueryError Lambda :=
  match c.args[index]?.bind Expr.asLambda? with
  | some l => .ok l
  | none => .error (.misuse (.lambdaExpected c.stage.name (index + 1)))

def resolve (c : Call) (index : Nat) (item : Expr) : Build Expr := do
  (← c.lambda index).resolve item

def ensureArity (c : Call) (allowed : List Nat) : Build Unit :=
  Build.ensure (allowed.contains c.args.length) (.misuse (.stageArity c.stage.name c.args.length))

def argument (c : Call) : Build Expr :=
  match c.args with
  | [e] => pure e
  | args => throw (.misuse (.stageArity c.stage.name args.length))

def isClause (c : Call) : Bool :=
  match c.stage with
  | .filter | .project | .sort | .sortDescending => true
  | _ => false

end Call

namespace Query

def addClause (q : Query) (clause : Clause) : Query := { q with clauses := q.clauses ++ [clause] }
def addOperator (q : Query) (op : ResultOperator) : Query := { q with operators := q.operators ++ [op] }

def addCall (q : Query) (item : Expr) (itemName : String) (c : Call) : Build (Query × Expr) := do
  Build.ensure (!c.isClause || q.operators.isEmpty) (.unsupported (.afterOperator c.stage.name))
  match c.stage with
  | .filter =>
    c.ensureArity [1]
    return (q.addClause (← Build.filter (← c.resolve 0 item)), item)
  | .sort | .sortDescending =>
    c.ensureArity [1]
    return (q.addClause (.sort [⟨← c.resolve 0 item, c.stage == .sortDescending⟩]), item)
  | .project =>
    c.ensureArity [1]
    let selector ← c.resolve 0 item
    return ({ q with selector }, selector)
  | .group =>
    c.ensureArity [1, 2]
    let key ← c.resolve 0 item
    let element ← if c.args.length = 2 then c.resolve 1 item else pure item
    let id ← freshSource
    let next ← Build.reference (ResultOperator.groupSource itemName id key element)
    return (q.addOperator (.group itemName id key element), next)
  | .distinct =>
    c.ensureArity [0]
    return (q.addOperator .distinct, item)
  | .take => return (q.addOperator (← Build.take (← c.argument)), item)
  | .skip => return (q.addOperator (← Build.skip (← c.argument)), item)
  | .count =>
    c.ensureArity [0]
    return (q.addOperator .count, item)
  | .first | .firstOrNull =>
    c.ensureArity [0]
    return (q.addOperator (.first (c.stage == .firstOrNull)), item)

abbrev Assembly := ExceptT QueryError Naming

def named {α : Type} (work : Naming α) : Assembly α := ExceptT.lift work
def built {α : Type} (work : Build α) : Assembly α := ExceptT.mk (StateT.lift work.run)

def addCalls (q : Query) (item : Expr) : List Call → Assembly Query
  | [] => pure q
  | c :: rest => do
    let name ← named (Naming.itemName c.args)
    let (q, item) ← built (q.addCall item name c)
    addCalls q item rest

def assemble (chain : Expr) : Assembly Query := do
  let (root, calls) := chain.unchain
  let name ← named (Naming.itemName ((calls.head?.map Call.args).getD []))
  let q ← built (start name root)
  addCalls q (← built (Build.reference q.source)) calls

def ofChain (chain : Expr) : Build Query := ExceptT.mk (return (← (assemble chain).run.run 0).1)

end Query

end SymbolicQuery
