import SymbolicQuery.Expr.Build
import SymbolicQuery.Token.Reader

/-! Reading tokens one after another. A reader knows the types and parameters that are in scope,
sees the next token without taking it, and stops at the first error. -/
namespace SymbolicQuery

inductive Expected where
  | identifier
  | expression
  | token (t : Token)
  deriving DecidableEq

inductive ParseError where
  | lex (cause : LexError)
  | unexpected (expected : Expected) (found : Token) (position : Nat)
  | unknownName (name : String) (position : Nat)
  | unknownMethod (name : String) (position : Nat)
  | unknownStage (name : String) (position : Nat)
  | unknownType (name : String) (position : Nat)
  | query (error : QueryError) (position : Nat)
  deriving DecidableEq

namespace Expected

def text : Expected → String
  | identifier => "identifier"
  | expression => "expression"
  | token t => t.text

end Expected

namespace ParseError

def message : ParseError → String
  | lex cause => cause.message
  | unexpected expected found position =>
    "Expected " ++ expected.text ++ ", got " ++ found.text ++ s!" at position {position}"
  | unknownName name position => s!"Unknown identifier '{name}' at position {position}"
  | unknownMethod name position => s!"Unknown identifier '{name}()' at position {position}"
  | unknownStage name position => s!"Unknown query operator '{name}' at position {position}"
  | unknownType name position => s!"Unknown type '{name}' at position {position}"
  | query error position => error.message ++ s!" (at position {position})"

end ParseError

structure Scope where
  /-- of two types of one name the later counts -/
  types : List ObjectType
  /-- the innermost parameter first -/
  params : List Param

namespace Scope

def type? (s : Scope) (name : String) : Option ObjectType := s.types.findRev? (·.name == name)
def param? (s : Scope) (name : String) : Option Param := s.params.find? (·.name == name)
def push (s : Scope) (p : Param) : Scope := { s with params := p :: s.params }

end Scope

abbrev Reading := ReaderT Scope (StateT Tokens (ExceptT ParseError Fresh))

namespace Reading
variable {α : Type}

def next : Reading Placed := return (← get).next
def advance : Reading Unit := modify Tokens.advance

def take : Reading Placed := do
  let placed ← next
  modify (Tokens.replace .eof)
  return placed

def putBack (token : Token) : Reading Unit := modify (Tokens.replace token)

def unexpected (expected : Expected) : Reading α := do
  let (found, position) ← next
  throw (.unexpected expected found position)

def sees (token : Token) : Reading Bool := return (← next).1 == token

def accepts (token : Token) : Reading Bool := do
  let seen ← sees token
  if seen then advance
  return seen

def expect (token : Token) : Reading Unit := do
  if ← sees token then advance else unexpected (.token token)

def identifier : Reading (String × Nat) := do
  match ← next with
  | (.identifier name, position) =>
    advance
    return (name, position)
  | _ => unexpected .identifier

def build (position : Nat) (work : Build α) : Reading α := fun _ ts => ExceptT.mk do
  return (← work.run).map (·, ts) |>.mapError (.query · position)

/-- Takes steps until one declines. Each step before it takes a token, so the number of tokens
bounds them. -/
def iterate (step : α → Reading (Option α)) (start : α) : Reading α := do
  let rec go : Nat → α → Reading α
    | 0, a => pure a
    | n + 1, a => do
      match ← step a with
      | some b => go n b
      | none => pure a
  go ((← get).pending.length + 1) start

def oneMore (close : Token) (item : Reading α) (items : List α) : Reading (Option (List α)) := do
  if ← sees close then return none
  let a ← item
  if !(← sees close) then expect .comma
  return some (a :: items)

def itemsUntil (close : Token) (item : Reading α) : Reading (List α) := do
  let items ← iterate (oneMore close item) []
  expect close
  return items.reverse

def all (scope : Scope) (text : String) (reader : Reading α) : ExceptT ParseError Fresh α := do
  match Tokens.read text with
  | .error cause => throw (.lex cause)
  | .ok tokens => return (← (reader.run scope).run tokens).1

end Reading

end SymbolicQuery
