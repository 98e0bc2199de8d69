import SymbolicQuery.Text.CharSet

/-! Patterns that texts are searched for. A search keeps the patterns that may still follow the
text read so far; each character takes every one of them to what may follow that character. -/
namespace SymbolicQuery.Text

inductive Place where
  | textStart | textEnd
  | lineStart | lineEnd
  /-- lines that end in a carriage return, a line feed or both -/
  | returnStart | returnEnd
  | boundary (ascii : Bool)
  | inside (ascii : Bool)
  | wordStart (ascii : Bool)
  | wordEnd (ascii : Bool)
  | noWordBefore (ascii : Bool)
  | noWordAfter (ascii : Bool)
  deriving DecidableEq

inductive Pattern where
  | nothing
  | set (s : CharSet)
  | place (p : Place)
  | both (first second : Pattern)
  | either (first second : Pattern)
  | times (p : Pattern) (least : Nat) (most : Option Nat)
  deriving DecidableEq

structure Between where
  before : Option Char
  after : Option Char

namespace Place

def holds (at_ : Between) : Place → Bool
  | textStart => at_.before.isNone
  | textEnd => at_.after.isNone
  | lineStart => at_.before.isNone || at_.before == some '\n'
  | lineEnd => at_.after.isNone || at_.after == some '\n'
  | returnStart =>
    at_.before.isNone || at_.before == some '\n' || (at_.before == some '\r' && at_.after != some '\n')
  | returnEnd =>
    at_.after.isNone || at_.after == some '\r' || (at_.after == some '\n' && at_.before != some '\r')
  | boundary ascii => word ascii at_.before != word ascii at_.after
  | inside ascii => word ascii at_.before == word ascii at_.after
  | wordStart ascii => !word ascii at_.before && word ascii at_.after
  | wordEnd ascii => word ascii at_.before && !word ascii at_.after
  | noWordBefore ascii => !word ascii at_.before
  | noWordAfter ascii => !word ascii at_.after
where
  word (ascii : Bool) : Option Char → Bool
    | some c => if ascii then c.isAlphanum || c == '_' else isWord c
    | none => false

end Place

namespace Pattern

/-- The size of the pattern with its counted repetitions written out: a character of ASCII counts
one, and any other, which takes several bytes, twelve. -/
def size : Pattern → Nat
  | nothing | place _ => 1
  | set s => if s.isAscii then 1 else 12
  | both a b => a.size + b.size
  | either a b => a.size + b.size + 1
  | times p least none => max least 1 * p.size + 1
  | times p least (some most) => least * p.size + (most - least) * (p.size + 1) + 1

/-- The largest size of a pattern that is searched for: ten mebibytes at 32 bytes for each step. -/
def maxSize : Nat := 10 * 2 ^ 20 / 32

def matchesEmpty (at_ : Between) : Pattern → Bool
  | nothing => true
  | set _ => false
  | place p => p.holds at_
  | both a b => a.matchesEmpty at_ && b.matchesEmpty at_
  | either a b => a.matchesEmpty at_ || b.matchesEmpty at_
  | times p least _ => least == 0 || p.matchesEmpty at_

def following (at_ : Between) (c : Char) : Pattern → List Pattern
  | nothing => []
  | set s => if s.has c.toNat then [nothing] else []
  | place _ => []
  | both a b =>
    (a.following at_ c).map (fun rest => if rest = nothing then b else both rest b) ++
      (if a.matchesEmpty at_ then b.following at_ c else [])
  | either a b => a.following at_ c ++ b.following at_ c
  | times p least most =>
    if most = some 0 then []
    else
      let again := times p (if p.matchesEmpty at_ then 0 else least - 1) (most.map (· - 1))
      (p.following at_ c).map fun rest => if rest = nothing then again else both rest again

/-- Reads the rest of a text with the patterns that may follow; a match may also start here. -/
def search (p : Pattern) (open_ : List Pattern) (before : Option Char) : List Char → Bool
  | [] => (p :: open_).any (·.matchesEmpty ⟨before, none⟩)
  | c :: rest =>
    let at_ : Between := ⟨before, some c⟩
    (p :: open_).any (·.matchesEmpty at_) ||
      search p ((p :: open_).flatMap (·.following at_ c)).eraseDups (some c) rest

def occursIn (p : Pattern) (text : String) : Bool := p.search [] none text.toList

end Pattern

end SymbolicQuery.Text
