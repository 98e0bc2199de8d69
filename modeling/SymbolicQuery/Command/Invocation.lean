import SymbolicQuery.Command

/-! The command line: what to do, a query, and options anywhere behind. An option that takes a
value has it behind `=`, behind its letter, or in the next argument, and letters may share a dash.
What follows `--` is no option. -/
namespace SymbolicQuery

inductive Action where
  | run | explain
  deriving DecidableEq, Repr

structure Invocation where
  action : Action
  query : String
  input : Option String
  pretty : Bool
  verbose : Bool
  deriving DecidableEq, Repr

structure Outcome where
  code : Nat
  stdout : String
  stderr : String
  deriving DecidableEq, Repr

namespace Invocation

structure Given where
  action : Action
  query : Option String
  input : Option String
  pretty : Bool
  verbose : Bool

namespace Given

def setQuery? (g : Given) (text : String) : Option Given :=
  if g.query.isNone then some { g with query := some text } else none

def setInput? (g : Given) (text : String) : Option Given :=
  if g.input.isNone then some { g with input := some text } else none

def setPretty? (g : Given) : Option Given :=
  if g.action = .run ∧ ¬ g.pretty then some { g with pretty := true } else none

end Given

def letters? (g : Given) : List Char → Option (Given × Bool)
  | [] => some (g, false)
  | c :: rest =>
    if c = 'v' then letters? { g with verbose := true } rest
    else if c = 'p' then do letters? (← g.setPretty?) rest
    else if c = 'i' then
      match rest with
      | [] => some (g, true)
      | '=' :: text => (g.setInput? (String.ofList text)).map (·, false)
      | text => (g.setInput? (String.ofList text)).map (·, false)
    else none

def name? (g : Given) (name : List Char) : Option (Given × Bool) :=
  if name = "verbose".toList then some ({ g with verbose := true }, false)
  else if name = "pretty".toList then g.setPretty?.map (·, false)
  else if name = "input".toList then some (g, true)
  else if "input=".toList.isPrefixOf name then
    (g.setInput? (String.ofList (name.drop "input=".length))).map (·, false)
  else none

def isOption (arg : List Char) : Bool :=
  match arg with
  | '-' :: _ :: _ => true
  | _ => false

def arguments? (g : Given) : List (List Char) → Option Given
  | [] => some g
  | arg :: rest =>
    if arg = ['-', '-'] then rest.foldlM (fun g text => g.setQuery? (String.ofList text)) g
    else if isOption arg then do
      let (g, awaiting) ← match arg.drop 1 with
        | '-' :: name => name? g name
        | letters => letters? g letters
      match awaiting, rest with
      | false, rest => arguments? g rest
      | true, value :: rest =>
        if isOption value then none else arguments? (← g.setInput? (String.ofList value)) rest
      | true, [] => none
    else do arguments? (← g.setQuery? (String.ofList arg)) rest

def action? (word : String) : Option Action :=
  if word = "run" then some .run else if word = "explain" then some .explain else none

def start? (verbose : Bool) : List String → Option (Given × List String)
  | [] => none
  | arg :: rest =>
    if arg = "--verbose" ∨ (isOption arg.toList ∧ (arg.toList.drop 1).all (· = 'v')) then start? true rest
    else (action? arg).map fun action => (⟨action, none, none, false, verbose⟩, rest)

def ofArguments? (args : List String) : Option Invocation := do
  let (g, rest) ← start? false args
  let g ← arguments? g (rest.map String.toList)
  return ⟨g.action, ← g.query, g.input, g.pretty, g.verbose⟩

def output (i : Invocation) (input : Option String) : Except CommandError String :=
  match i.action with
  | .run => do
    let j ← Command.perform (Command.answer i.query input)
    return (if i.pretty then j.pretty else j.compact) ++ "\n"
  | .explain => Command.perform (Command.explain i.query input)

def outcome (i : Invocation) (stdin : String) : Outcome :=
  match i.output (some (i.input.getD stdin)) with
  | .ok text => ⟨0, text, ""⟩
  | .error (.query .brokenOrder) => ⟨134, "", QueryError.brokenOrder.message ++ "\n"⟩
  | .error e => ⟨1, "", e.message ++ "\n"⟩

end Invocation

end SymbolicQuery
