import SymbolicQuery.Command.Invocation

/-! The command: reads its arguments and its input, prints what comes out. -/
namespace SymbolicQuery

def usage : String :=
  "Usage: run QUERY [--input JSON] [--pretty] [--verbose]\n       explain QUERY [--input JSON] [--verbose]\n"

end SymbolicQuery

open SymbolicQuery in
def main (args : List String) : IO UInt32 := do
  match Invocation.ofArguments? args with
  | none =>
    (← IO.getStderr).putStr usage
    return 2
  | some i =>
    let stdin ← if i.input.isSome then pure "" else (← IO.getStdin).readToEnd
    let outcome := i.outcome stdin
    (← IO.getStdout).putStr outcome.stdout
    (← IO.getStderr).putStr outcome.stderr
    return outcome.code.toUInt32
