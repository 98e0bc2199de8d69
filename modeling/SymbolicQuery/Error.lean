/-! What can go wrong while a query is written, resolved or run, by cause, and its wording. -/
namespace SymbolicQuery

inductive Site where
  | constant
  | access (member : String)
  | operands (symbol : String)
  | negation
  | call (name : String)
  | callArgument (name : String)
  | conversion
  | assignment (member : String)
  | collection (member : String)
  | origin
  | predicate
  | count (name : String)
  | rows
  | itemExpression (text : String)
  | rowsExpected
  | row
  | scalar
  | operatorInput (name : String)
  | groupedItem (name text : String)
  | argument (name : String)
  | pathInput (name : String)
  | parameter (name : String)
  deriving DecidableEq, Repr

inductive Misuse where
  | readsMethod (member : String)
  | callsValue (member : String)
  | callArity (name : String) (takes given : Nat)
  | constructorArity (type : String) (takes given : Nat)
  | memberCount (type : String) (members arguments : Nat)
  | notAMember (member type : String)
  | notAConstruction
  | lambdaArity (lambda : String) (takes given : Nat)
  | notOneParameter (lambda : String)
  | lambdaExpected (stage : String) (position : Nat)
  | stageArity (stage : String) (given : Nat)
  | getterArguments (name : String)
  | missingArgument (name : String)
  | pattern
  deriving DecidableEq, Repr

inductive Unsupported where
  | lambdaValue (lambda : String)
  | stageValue (stage : String)
  | afterOperator (stage : String)
  deriving DecidableEq, Repr

inductive Failure where
  | unbound (parameter : String)
  | populates (kind : String)
  | negates (kind : String)
  | reads (member kind : String)
  | compares (left right : String)
  | applies (symbol left right : String)
  | callsOn (name kind : String)
  | callsWith (name kind : String)
  | unordered (key left right : String)
  deriving DecidableEq, Repr

inductive Unresolved where
  | inLambda (lambda : String)
  | inEvaluation
  | notInItem (item : String)
  deriving DecidableEq, Repr

inductive QueryError where
  | mismatch (site : Site) (expected actual : String)
  | noPath (full searched : String)
  | unresolved (source : String) (why : Unresolved)
  | misuse (cause : Misuse)
  | unsupported (cause : Unsupported)
  | failure (cause : Failure)
  | overflow (operation : String)
  | divisionByZero
  | emptySequence
  /-- A sort has come upon an order that is none, which ends the program. -/
  | brokenOrder
  deriving DecidableEq, Repr

namespace Site

def text : Site → String
  | constant => "constant"
  | access member => s!"access to '{member}'"
  | operands symbol => s!"operator '{symbol}'"
  | negation => "unary negation"
  | call name => s!".{name}()"
  | callArgument name => s!".{name}() argument"
  | conversion => "conversion"
  | assignment member => s!"assignment to '{member}'"
  | collection member => s!"collection initializer of '{member}'"
  | origin => "from clause"
  | predicate => "where predicate"
  | count name => s!"{name} count"
  | rows => "streamed sequence"
  | itemExpression text => s!"item expression '{text}'"
  | rowsExpected => "streamed data"
  | row => "sequence item"
  | scalar => "streamed value"
  | operatorInput name => s!"input of {name}"
  | groupedItem name text => s!"{name} item expression '{text}'"
  | argument name => s!"argument '{name}'"
  | pathInput name => s!"accessor input parameter '{name}'"
  | parameter name => s!"parameter '{name}'"

end Site

namespace Misuse

def message : Misuse → String
  | readsMethod member => s!"member '{member}' is a method; use a getter call"
  | callsValue member => s!"member '{member}' is not a method"
  | callArity name takes given => s!".{name}() takes {takes} argument(s), got {given}"
  | constructorArity type takes given => s!"constructor of {type} takes {takes} argument(s), got {given}"
  | memberCount type members arguments =>
    s!"construction of {type} lists {members} member(s) for {arguments} argument(s)"
  | notAMember member type => s!"'{member}' is not a member of {type}"
  | notAConstruction => "member initialization requires a construction node"
  | lambdaArity lambda takes given => s!"'{lambda}' takes {takes} argument(s), got {given}"
  | notOneParameter lambda => s!"'{lambda}' must take exactly one parameter"
  | lambdaExpected stage position => s!".{stage}() argument {position} must be a lambda"
  | stageArity stage given => s!".{stage}() does not take {given} argument(s)"
  | getterArguments name => s!"{name}() takes no arguments"
  | missingArgument name => s!".{name}() requires exactly one argument"
  | pattern => "invalid regex"

end Misuse

namespace Unsupported

def message : Unsupported → String
  | lambdaValue lambda => s!"lambda '{lambda}' cannot be evaluated as a value"
  | stageValue stage => s!".{stage}() is a query operator; build a query model to execute it"
  | afterOperator stage => s!".{stage}() after a result operator requires a subquery"

end Unsupported

namespace Failure

def message : Failure → String
  | unbound parameter => s!"parameter '{parameter}' is not bound"
  | populates kind => s!"member initialization of a {kind}"
  | negates kind => s!"cannot negate {kind}"
  | reads member kind => s!"cannot read member '{member}' of {kind}"
  | compares left right => s!"cannot compare {left} and {right}"
  | applies symbol left right => s!"cannot apply '{symbol}' to {left} and {right}"
  | callsOn name kind => s!".{name}() requires string, got {kind}"
  | callsWith name kind => s!".{name}() argument must be string, got {kind}"
  | unordered key left right => s!"order key '{key}' yields incomparable values {left} and {right}"

end Failure

namespace Unresolved

def message : Unresolved → String
  | inLambda lambda => s!"'{lambda}' still references a query source"
  | inEvaluation => "query source references must be resolved before evaluation"
  | notInItem item => s!"it does not occur in the item expression '{item}'"

end Unresolved

inductive ErrorKind where
  | mismatch | noPath | unresolved | misuse | unsupported | failure | overflow | divisionByZero
  | emptySequence | brokenOrder
  deriving DecidableEq, Repr

namespace QueryError

def kind : QueryError → ErrorKind
  | mismatch .. => .mismatch
  | noPath .. => .noPath
  | unresolved .. => .unresolved
  | misuse .. => .misuse
  | unsupported .. => .unsupported
  | failure .. => .failure
  | overflow .. => .overflow
  | divisionByZero => .divisionByZero
  | emptySequence => .emptySequence
  | brokenOrder => .brokenOrder

def message : QueryError → String
  | mismatch site expected actual =>
    let place := site.text
    s!"Type mismatch in {place}: expected {expected}, got {actual}"
  | noPath full searched =>
    s!"The given expression '{full}' does not contain the searched expression '{searched}' " ++
      "in a nested construction with member assignments or a member binding"
  | unresolved source why =>
    let reason := why.message
    s!"Unresolved query source [{source}]: {reason}"
  | misuse cause => "Invalid argument: " ++ cause.message
  | unsupported cause => "Unsupported: " ++ cause.message
  | failure cause => "Evaluation error: " ++ cause.message
  | overflow operation => s!"Arithmetic overflow: {operation}"
  | divisionByZero => "Division by zero"
  | emptySequence => "Sequence contains no elements"
  | brokenOrder => "user-provided comparison function does not correctly implement a total order"

end QueryError

end SymbolicQuery
