import SymbolicQuery.Expr.Chain
import SymbolicQuery.Json.Reader
import SymbolicQuery.Query.Execute
import SymbolicQuery.Query.OfChain
import SymbolicQuery.Ty.Infer
import SymbolicQuery.Value.Exchange

/-! Queries over documents. The document is an array, typed after its items, that the query text
calls `$`; the query is run to another document, or shown with the shape of its result. -/
namespace SymbolicQuery

inductive CommandError where
  | parse (cause : ParseError)
  | query (cause : QueryError)
  | json
  | noInput
  | notArray (kind : String)
  deriving DecidableEq

namespace CommandError

def message : CommandError → String
  | parse cause => "Parse error: " ++ cause.message
  | query cause => "Query error: " ++ cause.message
  | json => "Invalid JSON"
  | noInput => "No input provided. Use --input or pipe JSON to stdin."
  | notArray kind => "Input must be a JSON array, got " ++ kind

end CommandError

namespace Command

abbrev Work := ExceptT CommandError Fresh

def parsing {α : Type} (work : ExceptT ParseError Fresh α) : Work α :=
  ExceptT.mk (return (← work.run).mapError .parse)

def querying {α : Type} (work : Build α) : Work α :=
  ExceptT.mk (return (← work.run).mapError .query)

def valueOf (text : String) : Except CommandError Value :=
  match Json.read? text with
  | some j => .ok (.ofJson j)
  | none => .error .json

def rootOf (v : Value) : Work Expr :=
  match v with
  | .array _ => querying (Build.constant v (.infer v))
  | v => throw (.notArray v.kindName)

def root (input : Option String) : Work Expr := do
  match input with
  | none => querying (Build.constant (.array []) (.sequence .any))
  | some text => rootOf (← valueOf text)

def queryOver (text : String) (root : Expr) : Work Query := do
  querying (Query.ofChain (← parsing (Expr.readChain [] root text)))

def answerOver (text : String) (root : Expr) : Work Json := do
  let output ← querying (← queryOver text root).execute
  return output.value.toJson

def answer (text : String) (input : Option String) : Work Json := do
  if input.isNone then throw .noInput
  answerOver text (← root input)

def explain (text : String) (input : Option String) : Work String := do
  let q ← queryOver text (← root input)
  let shape ← querying q.shape
  return q.text ++ "\noutput: " ++ shape.text ++ "\n"

def perform {α : Type} (work : Work α) : Except CommandError α := (work.run.run .start).1

end Command

end SymbolicQuery
