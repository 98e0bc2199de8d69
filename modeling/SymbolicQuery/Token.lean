import SymbolicQuery.Number.Binary64.Shortest
import SymbolicQuery.Text.Quoted

/-! Tokens of query text, and their names in error messages. -/
namespace SymbolicQuery

inductive Token where
  | integer (n : Int64)
  | float (x : Binary64)
  | string (s : String)
  | boolean (b : Bool)
  | null
  | identifier (name : String)
  | newWord | asWord | andWord | orWord
  | dollar | arrow | assign
  | equal | notEqual | less | greater | lessEqual | greaterEqual
  | plus | minus | star | slash | percent | bang
  | openParen | closeParen | openBrace | closeBrace
  | dot | comma
  | eof
  deriving DecidableEq

namespace Token

def ofWord (word : String) : Token :=
  match word with
  | "and" => andWord
  | "or" => orWord
  | "new" => newWord
  | "as" => asWord
  | "true" => boolean true
  | "false" => boolean false
  | "null" => null
  | name => identifier name

def text : Token → String
  | integer n => "Integer(" ++ toString n.toInt ++ ")"
  | float x => "Float(" ++ x.write Binary64.display ++ ")"
  | string s => "String(" ++ Text.quote s ++ ")"
  | boolean b => if b then "Boolean(true)" else "Boolean(false)"
  | null => "Null"
  | identifier name => "Identifier(" ++ Text.quote name ++ ")"
  | newWord => "New"
  | asWord => "As"
  | andWord => "And"
  | orWord => "Or"
  | dollar => "Dollar"
  | arrow => "Arrow"
  | assign => "Assign"
  | equal => "EqEq"
  | notEqual => "NotEq"
  | less => "Lt"
  | greater => "Gt"
  | lessEqual => "LtEq"
  | greaterEqual => "GtEq"
  | plus => "Plus"
  | minus => "Minus"
  | star => "Star"
  | slash => "Slash"
  | percent => "Percent"
  | bang => "Bang"
  | openParen => "LParen"
  | closeParen => "RParen"
  | openBrace => "LBrace"
  | closeBrace => "RBrace"
  | dot => "Dot"
  | comma => "Comma"
  | eof => "Eof"

end Token

abbrev Placed := Token × Nat

structure Tokens where
  pending : List Placed
  finish : Nat

namespace Tokens

def next (ts : Tokens) : Placed := ts.pending.headD (.eof, ts.finish)

def advance (ts : Tokens) : Tokens := { ts with pending := ts.pending.tail }

def replace (token : Token) (ts : Tokens) : Tokens :=
  match ts.pending with
  | [] => ts
  | (_, position) :: rest => { ts with pending := (token, position) :: rest }

def toList (ts : Tokens) : List Placed := ts.pending ++ [(.eof, ts.finish)]

end Tokens

end SymbolicQuery
