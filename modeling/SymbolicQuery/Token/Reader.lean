import SymbolicQuery.Text.Character
import SymbolicQuery.Token
import SymbolicQuery.Value

/-! Cutting a text into tokens. Blanks stand between tokens and nowhere else matter; positions
count characters. -/
namespace SymbolicQuery

inductive LexError where
  | unexpected (c : Char) (position : Nat)
  | unterminated (position : Nat)
  | escape (c : Char) (position : Nat)
  | number (text : String) (position : Nat)
  deriving DecidableEq, Repr

namespace LexError

def message : LexError → String
  | unexpected c position => s!"Unexpected character '{c}' at position {position}"
  | unterminated position => s!"Unterminated string starting at position {position}"
  | escape c position => "Invalid escape sequence '\\" ++ s!"{c}' at position {position}"
  | number text position => s!"Invalid number '{text}' at position {position}"

end LexError

namespace Token

def isWordStart (c : Char) : Bool := Text.isAlphabetic c || c = '_'
def isWordPart (c : Char) : Bool := Text.isAlphanumeric c || c = '_'

def unescape? (c : Char) : Option Char :=
  if c = 'n' then some '\n'
  else if c = 't' then some '\t'
  else if c = 'r' then some '\r'
  else if c = '"' ∨ c = '\'' ∨ c = '\\' then some c
  else none

def stringBody (quote : Char) (start : Nat) : (position : Nat) → List Char → Except LexError (List Char × Nat)
  | position, '\\' :: c :: rest =>
    match unescape? c with
    | none => .error (.escape c (position + 1))
    | some d => do
      let (content, size) ← stringBody quote start (position + 2) rest
      return (d :: content, size + 2)
  | position, c :: rest =>
    if c = quote then .ok ([], 1)
    else do
      let (content, size) ← stringBody quote start (position + 1) rest
      return (c :: content, size + 1)
  | _, [] => .error (.unterminated start)

def numberParts (cs : List Char) : List Char × List Char :=
  let whole := cs.takeWhile Char.isDigit
  match cs.drop whole.length with
  | '.' :: rest => (whole, rest.takeWhile Char.isDigit)
  | _ => (whole, [])

def number (position : Nat) (cs : List Char) : Except LexError (Token × Nat) :=
  let (whole, places) := numberParts cs
  let refuse (text : List Char) : LexError := .number (String.ofList text) position
  if places.isEmpty then
    match int64? (Binary64.digitsValue whole) with
    | some n => .ok (.integer n, whole.length)
    | none => .error (refuse whole)
  else
    let text := whole ++ '.' :: places
    match Binary64.read? (String.ofList text) with
    | some x => .ok (.float x, text.length)
    | none => .error (refuse text)

def sign? (c : Char) (rest : List Char) : Option (Token × Nat) :=
  match c, rest with
  | '=', '=' :: _ => some (equal, 2)
  | '=', '>' :: _ => some (arrow, 2)
  | '=', _ => some (assign, 1)
  | '>', '=' :: _ => some (greaterEqual, 2)
  | '>', _ => some (greater, 1)
  | '<', '=' :: _ => some (lessEqual, 2)
  | '<', _ => some (less, 1)
  | '!', '=' :: _ => some (notEqual, 2)
  | '!', _ => some (bang, 1)
  | '$', _ => some (dollar, 1)
  | '.', _ => some (dot, 1)
  | ',', _ => some (comma, 1)
  | '+', _ => some (plus, 1)
  | '-', _ => some (minus, 1)
  | '*', _ => some (star, 1)
  | '/', _ => some (slash, 1)
  | '%', _ => some (percent, 1)
  | '(', _ => some (openParen, 1)
  | ')', _ => some (closeParen, 1)
  | '\x7b', _ => some (openBrace, 1)
  | '\x7d', _ => some (closeBrace, 1)
  | _, _ => none

def first (position : Nat) (c : Char) (rest : List Char) : Except LexError (Token × Nat) :=
  match sign? c rest with
  | some sign => .ok sign
  | none =>
    if c = '"' ∨ c = '\'' then do
      let (content, size) ← stringBody c position (position + 1) rest
      return (.string (String.ofList content), size + 1)
    else if isWordStart c then
      let word := c :: rest.takeWhile isWordPart
      .ok (ofWord (String.ofList word), word.length)
    else if c.isDigit then number position (c :: rest)
    else .error (.unexpected c position)

def readFrom (position : Nat) (cs : List Char) : Except LexError Tokens :=
  match cs with
  | [] => .ok ⟨[], position⟩
  | c :: rest =>
    if Text.isBlank c then readFrom (position + 1) rest
    else do
      let (token, size) ← first position c rest
      let ts ← readFrom (position + max size 1) (rest.drop (size - 1))
      return { ts with pending := (token, position) :: ts.pending }
termination_by cs.length
decreasing_by all_goals simp; try omega

end Token

def Tokens.read (text : String) : Except LexError Tokens := Token.readFrom 0 text.toList

end SymbolicQuery
