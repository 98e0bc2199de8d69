import SymbolicQuery.Ty

/-! Operators, text methods and the stages of a chain, with their spelling and static result. -/
namespace SymbolicQuery

inductive BinaryOp where
  | equal | notEqual | less | greater | lessEqual | greaterEqual
  | add | subtract | multiply | divide | modulo
  | and | or
  deriving DecidableEq, Repr

inductive UnaryOp where
  | not | negate
  deriving DecidableEq, Repr

inductive TextMethod where
  | upper | lower | trim | length | contains | startsWith | endsWith | matchesPattern
  deriving DecidableEq, Repr

inductive Stage where
  | filter | project | sort | sortDescending | group | distinct
  | take | skip | count | first | firstOrNull
  deriving DecidableEq, Repr

namespace BinaryOp

def all : List BinaryOp :=
  [equal, notEqual, less, greater, lessEqual, greaterEqual, add, subtract, multiply, divide, modulo,
   and, or]

def symbol : BinaryOp → String
  | equal => "=="
  | notEqual => "!="
  | less => "<"
  | greater => ">"
  | lessEqual => "<="
  | greaterEqual => ">="
  | add => "+"
  | subtract => "-"
  | multiply => "*"
  | divide => "/"
  | modulo => "%"
  | and => "and"
  | or => "or"

def ofSymbol? (s : String) : Option BinaryOp := all.find? (·.symbol == s)

def promote : Ty → Ty → Option Ty
  | .any, _ | _, .any => some .any
  | .int, .int => some .int
  | l, r =>
    if l.isNumeric && r.isNumeric then
      if l = .decimal ∨ r = .decimal then some .decimal else some .float
    else none

def comparable (t : Ty) : Bool := t.isNumeric || t == .string || t == .bool || t == .any

def result? (op : BinaryOp) (left right : Ty) : Option Ty :=
  match op with
  | equal | notEqual | and | or => some .bool
  | less | greater | lessEqual | greaterEqual =>
    if comparable left && comparable right then some .bool else none
  | add => if left = .string ∧ right = .string then some .string else promote left right
  | subtract | multiply | divide | modulo => promote left right

end BinaryOp

namespace UnaryOp

def symbol : UnaryOp → String
  | not => "!"
  | negate => "-"

def result? (op : UnaryOp) (operand : Ty) : Option Ty :=
  match op with
  | not => some .bool
  | negate => if operand.isNumeric || operand == .any then some operand else none

end UnaryOp

namespace TextMethod

def all : List TextMethod := [upper, lower, trim, length, contains, startsWith, endsWith, matchesPattern]

def name : TextMethod → String
  | upper => "upper"
  | lower => "lower"
  | trim => "trim"
  | length => "length"
  | contains => "contains"
  | startsWith => "starts_with"
  | endsWith => "ends_with"
  | matchesPattern => "matches"

def ofName? (s : String) : Option TextMethod := all.find? (·.name == s)

def arity : TextMethod → Nat
  | upper | lower | trim | length => 0
  | contains | startsWith | endsWith | matchesPattern => 1

def result : TextMethod → Ty
  | upper | lower | trim => .string
  | length => .int
  | contains | startsWith | endsWith | matchesPattern => .bool

end TextMethod

namespace Stage

def all : List Stage :=
  [filter, project, sort, sortDescending, group, distinct, take, skip, count, first, firstOrNull]

def name : Stage → String
  | filter => "where"
  | project => "select"
  | sort => "order_by"
  | sortDescending => "order_by_desc"
  | group => "group_by"
  | distinct => "distinct"
  | take => "take"
  | skip => "skip"
  | count => "count"
  | first => "first"
  | firstOrNull => "first_or_default"

def ofName? (s : String) : Option Stage := all.find? (·.name == s)

end Stage

end SymbolicQuery
