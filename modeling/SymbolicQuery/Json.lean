import SymbolicQuery.Fields
import SymbolicQuery.Number.Binary64.Shortest
import SymbolicQuery.Text.Character

/-! Documents of the data exchange format, and their text on one line or indented. -/
namespace SymbolicQuery

/-- A document. Numbers written without a point or exponent that fit 64 bits stay whole. -/
inductive Json where
  | null
  | bool (b : Bool)
  | whole (n : Int)
  | real (x : Binary64)
  | string (s : String)
  | array (items : List Json)
  | object (fields : List (String × Json))
  deriving Repr

namespace Json

def escapeChar (c : Char) : List Char :=
  if c = '"' then ['\\', '"']
  else if c = '\\' then ['\\', '\\']
  else if c = '\n' then ['\\', 'n']
  else if c = '\r' then ['\\', 'r']
  else if c = '\t' then ['\\', 't']
  else if c = '\x08' then ['\\', 'b']
  else if c = '\x0c' then ['\\', 'f']
  else if c.toNat < 0x20 then
    let digits := Nat.toDigits 16 c.toNat
    ['\\', 'u'] ++ List.replicate (4 - digits.length) '0' ++ digits
  else [c]

def quote (s : String) : String := String.ofList ('"' :: s.toList.flatMap escapeChar ++ ['"'])

def openBrace : String := "\x7b"
def closeBrace : String := "\x7d"

mutual

def compact : Json → String
  | .null => "null"
  | .bool b => if b then "true" else "false"
  | .whole n => toString n
  | .real x => if x.isFinite then x.write Binary64.exchange else "null"
  | .string s => quote s
  | .array items => "[" ++ ",".intercalate (compactItems items) ++ "]"
  | .object fields => openBrace ++ ",".intercalate (compactFields fields) ++ closeBrace

def compactItems : List Json → List String
  | [] => []
  | j :: rest => j.compact :: compactItems rest

def compactFields : List (String × Json) → List String
  | [] => []
  | (name, j) :: rest => (quote name ++ ":" ++ j.compact) :: compactFields rest

end

def block (left right : String) (margin : Nat) (lines : List String) : String :=
  if lines.isEmpty then left ++ right
  else
    let newline (n : Nat) := "\n" ++ String.ofList (List.replicate n ' ')
    left ++ newline (margin + 2) ++ ("," ++ newline (margin + 2)).intercalate lines ++ newline margin ++ right

mutual

def indented (margin : Nat) : Json → String
  | .array items => block "[" "]" margin (indentedItems (margin + 2) items)
  | .object fields => block openBrace closeBrace margin (indentedFields (margin + 2) fields)
  | j => j.compact

def indentedItems (margin : Nat) : List Json → List String
  | [] => []
  | j :: rest => j.indented margin :: indentedItems margin rest

def indentedFields (margin : Nat) : List (String × Json) → List String
  | [] => []
  | (name, j) :: rest => (quote name ++ ": " ++ j.indented margin) :: indentedFields margin rest

end

def pretty (j : Json) : String := j.indented 0

end Json

end SymbolicQuery
