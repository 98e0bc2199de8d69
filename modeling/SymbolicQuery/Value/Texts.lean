import SymbolicQuery.Error
import SymbolicQuery.Operator
import SymbolicQuery.Text.Pattern.Reader
import SymbolicQuery.Value

/-! Text methods on values. A method of an absent text is absent. -/
namespace SymbolicQuery.Value

def occurs (part : List Char) : List Char → Bool
  | [] => part.isEmpty
  | c :: cs => part.isPrefixOf (c :: cs) || occurs part cs

def applyText (method : TextMethod) (s : String) (args : List Value) : Except QueryError Value :=
  let withText (f : String → Except QueryError Bool) : Except QueryError Value :=
    match args with
    | .string a :: _ => (f a).map .boolean
    | v :: _ => .error (.failure (.callsWith method.name v.kindName))
    | [] => .error (.misuse (.missingArgument method.name))
  match method with
  | .upper => .ok (.string (Text.toUpper s))
  | .lower => .ok (.string (Text.toLower s))
  | .trim => .ok (.string (Text.trim s))
  | .length => .ok (.integer (Int64.ofNat s.length))
  | .contains => withText fun a => .ok (occurs a.toList s.toList)
  | .startsWith => withText fun a => .ok (a.toList.isPrefixOf s.toList)
  | .endsWith => withText fun a => .ok (a.toList.isSuffixOf s.toList)
  | .matchesPattern => withText fun a =>
    match Text.Pattern.read? a with
    | some p => .ok (p.occursIn s)
    | none => .error (.misuse .pattern)

def callText (method : TextMethod) (receiver : Value) (args : List Value) : Except QueryError Value :=
  match receiver with
  | .null => .ok .null
  | .string s => applyText method s args
  | v => .error (.failure (.callsOn method.name v.kindName))

end SymbolicQuery.Value
