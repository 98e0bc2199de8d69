import SymbolicQuery.Text.Pattern
import SymbolicQuery.Text.Pattern.Names

/-! Reading patterns: literals, sets in brackets with their operators, escapes, groups with flags
and names, repetitions and conditions on places. A text that is no pattern has none. -/
namespace SymbolicQuery.Text.Pattern

structure Flags where
  anyCase : Bool
  multiLine : Bool
  dotAll : Bool
  /-- blanks and comments do not count -/
  spaced : Bool
  ascii : Bool
  returns : Bool
  swapped : Bool

def Flags.none : Flags := ⟨false, false, false, false, false, false, false⟩

def Flags.set? (value : Bool) (flags : Flags) (c : Char) : Option Flags :=
  match c with
  | 'i' => some { flags with anyCase := value }
  | 'm' => some { flags with multiLine := value }
  | 's' => some { flags with dotAll := value }
  | 'x' => some { flags with spaced := value }
  | 'u' => some { flags with ascii := !value }
  | 'R' => some { flags with returns := value }
  | 'U' => some { flags with swapped := value }
  | _ => Option.none

inductive Atom where
  | literal (c : Char)
  | set (s : CharSet)
  | place (p : Place)

def Flags.cased (flags : Flags) (s : CharSet) : CharSet := if flags.anyCase then .anyCase s else s

def Flags.digits (flags : Flags) : CharSet := if flags.ascii then .range 0x30 0x39 else .category .nd

def Flags.blanks (flags : Flags) : CharSet :=
  if flags.ascii then .union (.range 9 13) (.range 0x20 0x20) else .blank

def Flags.words (flags : Flags) : CharSet :=
  if flags.ascii then .ofRanges [('0', '9'), ('A', 'Z'), ('_', '_'), ('a', 'z')] else .word

/-- The complement of a set; under ASCII it would hold what is no text. -/
def Flags.except? (flags : Flags) (s : CharSet) : Option CharSet :=
  if flags.ascii then Option.none else some (.complement s)

def Flags.dot? (flags : Flags) : Option CharSet :=
  if flags.dotAll then flags.except? .empty
  else if flags.returns then flags.except? (.union (.single '\n') (.single '\r'))
  else flags.except? (.single '\n')

def Flags.lineStart (flags : Flags) : Place :=
  if !flags.multiLine then .textStart else if flags.returns then .returnStart else .lineStart

def Flags.lineEnd (flags : Flags) : Place :=
  if !flags.multiLine then .textEnd else if flags.returns then .returnEnd else .lineEnd

def hexDigit? (c : Char) : Option Nat :=
  if c.isDigit then some (c.toNat - '0'.toNat)
  else if 'a' ≤ c ∧ c ≤ 'f' then some (c.toNat - 'a'.toNat + 10)
  else if 'A' ≤ c ∧ c ≤ 'F' then some (c.toNat - 'A'.toNat + 10)
  else Option.none

def hexChar? (digits : List Char) : Option Char := do
  if digits.isEmpty || 8 < digits.length then Option.none
  let n ← digits.foldlM (fun n c => (hexDigit? c).map (16 * n + ·)) 0
  if n < 0xd800 ∨ (0xe000 ≤ n ∧ n < 0x110000) then some (Char.ofNat n) else Option.none

def readHex? (width : Nat) (cs : List Char) : Option (Char × List Char) :=
  match cs with
  | '\x7b' :: rest =>
    match rest.span (· != '\x7d') with
    | (digits, _ :: rest) => (hexChar? digits).map (·, rest)
    | _ => Option.none
  | cs => if cs.length < width then Option.none else (hexChar? (cs.take width)).map (·, cs.drop width)

def isMeta (c : Char) : Bool := "\\.+*?()|[]\x7b\x7d^$#&-~".contains c

def boundaryNamed? (ascii : Bool) (name : String) : Option Place :=
  if name = "start" then some (.wordStart ascii)
  else if name = "end" then some (.wordEnd ascii)
  else if name = "start-half" then some (.noWordBefore ascii)
  else if name = "end-half" then some (.noWordAfter ascii)
  else Option.none

def readBoundary? (ascii : Bool) (cs : List Char) : Option (Place × List Char) :=
  match cs with
  | '\x7b' :: rest =>
    match rest.span (fun c => c.isAlpha || c == '-') with
    | ([], _) => some (.boundary ascii, cs)
    | (name, '\x7d' :: rest) => (boundaryNamed? ascii (String.ofList name)).map (·, rest)
    | _ => Option.none
  | cs => some (.boundary ascii, cs)

def readEscape? (flags : Flags) : List Char → Option (Atom × List Char)
  | [] => Option.none
  | c :: rest =>
    let literal (c : Char) : Option (Atom × List Char) := some (.literal c, rest)
    match c with
    | 'd' => some (.set flags.digits, rest)
    | 's' => some (.set flags.blanks, rest)
    | 'w' => some (.set flags.words, rest)
    | 'D' => (flags.except? flags.digits).map (.set ·, rest)
    | 'S' => (flags.except? flags.blanks).map (.set ·, rest)
    | 'W' => (flags.except? flags.words).map (.set ·, rest)
    | 'p' | 'P' => do
      if flags.ascii then Option.none
      let (name, rest) ← match rest with
        | '\x7b' :: rest =>
          match rest.span (· != '\x7d') with
          | (name, _ :: rest) => some (name, rest)
          | _ => Option.none
        | '\\' :: _ | [] => Option.none
        | letter :: rest => some ([letter], rest)
      let s ← CharSet.described? name
      let s := flags.cased s
      return (.set (if c = 'P' then .complement s else s), rest)
    | 'x' => (readHex? 2 rest).map fun r => (.literal r.1, r.2)
    | 'u' => (readHex? 4 rest).map fun r => (.literal r.1, r.2)
    | 'U' => (readHex? 8 rest).map fun r => (.literal r.1, r.2)
    | 'a' => literal '\x07'
    | 'f' => literal '\x0c'
    | 't' => literal '\t'
    | 'n' => literal '\n'
    | 'r' => literal '\r'
    | 'v' => literal '\x0b'
    | 'A' => some (.place .textStart, rest)
    | 'z' => some (.place .textEnd, rest)
    | 'b' => (readBoundary? flags.ascii rest).map fun r => (.place r.1, r.2)
    | 'B' => some (.place (.inside flags.ascii), rest)
    | '<' => some (.place (.wordStart flags.ascii), rest)
    | '>' => some (.place (.wordEnd flags.ascii), rest)
    | c => if isMeta c || (c.toNat < 128 && !c.isAlphanum) then literal c else Option.none

def skipSpace (flags : Flags) : List Char → List Char
  | [] => []
  | c :: rest =>
    if !flags.spaced then c :: rest
    else if isBlank c then skipSpace flags rest
    else if c = '#' then afterLine rest
    else c :: rest
where
  afterLine : List Char → List Char
    | [] => []
    | '\n' :: rest => skipSpace flags rest
    | _ :: rest => afterLine rest

def readNamedSet? (flags : Flags) (cs : List Char) : Option (CharSet × List Char) :=
  match cs with
  | ':' :: rest =>
    let (negated, rest) := match rest with
      | '^' :: rest => (true, rest)
      | rest => (false, rest)
    match rest.span (· != ':') with
    | (name, ':' :: ']' :: rest) => do
      let s ← CharSet.asciiNamed? (String.ofList name)
      let s := flags.cased s
      if negated then return (← flags.except? s, rest) else return (s, rest)
    | _ => Option.none
  | _ => Option.none

def readAtom? (flags : Flags) : List Char → Option (Atom × List Char)
  | '\\' :: rest => readEscape? flags rest
  | c :: rest => some (.literal c, rest)
  | [] => Option.none

inductive SetOp where
  | inter | diff | symmetric

def SetOp.apply (a b : CharSet) : SetOp → CharSet
  | inter => .inter a b
  | diff => .diff a b
  | symmetric => .symmetric a b

def pending (flags : Flags) (left : Option (CharSet × SetOp)) (s : CharSet) : CharSet :=
  match left with
  | some (a, op) => op.apply a (flags.cased s)
  | none => flags.cased s

def isRange (flags : Flags) (cs : List Char) : Bool :=
  match cs with
  | '-' :: rest =>
    match skipSpace flags rest with
    | ']' :: _ | '-' :: _ => false
    | _ => true
  | _ => false

mutual

def readSet? (fuel : Nat) (flags : Flags) (cs : List Char) : Option (CharSet × List Char) :=
  match fuel with
  | 0 => Option.none
  | fuel + 1 => do
    let (negated, cs) := match skipSpace flags cs with
      | '^' :: rest => (true, skipSpace flags rest)
      | cs => (false, cs)
    let (hyphens, cs) := cs.span (· == '-')
    let start : CharSet := if hyphens.isEmpty then .empty else .single '-'
    let (start, cs) := match skipSpace flags cs with
      | ']' :: rest => if hyphens.isEmpty then (CharSet.single ']', rest) else (start, ']' :: rest)
      | cs => (start, cs)
    let (s, rest) ← readItems? fuel flags Option.none start cs
    if negated then return (← flags.except? s, rest) else return (s, rest)

def readItems? (fuel : Nat) (flags : Flags) (left : Option (CharSet × SetOp)) (s : CharSet)
    (cs : List Char) : Option (CharSet × List Char) :=
  match fuel with
  | 0 => Option.none
  | fuel + 1 =>
    match skipSpace flags cs with
    | [] => Option.none
    | ']' :: rest => some (pending flags left s, rest)
    | '[' :: rest =>
      match readNamedSet? flags rest with
      | some (inner, rest) => readItems? fuel flags left (.union s inner) rest
      | none => do
        let (inner, rest) ← readSet? fuel flags rest
        readItems? fuel flags left (.union s inner) rest
    | '&' :: '&' :: rest => readItems? fuel flags (some (pending flags left s, .inter)) .empty rest
    | '-' :: '-' :: rest => readItems? fuel flags (some (pending flags left s, .diff)) .empty rest
    | '~' :: '~' :: rest => readItems? fuel flags (some (pending flags left s, .symmetric)) .empty rest
    | cs => do
      let (atom, rest) ← readAtom? flags cs
      let rest := skipSpace flags rest
      match atom with
      | .place _ => Option.none
      | .set inner =>
        if isRange flags rest then Option.none else readItems? fuel flags left (.union s inner) rest
      | .literal low =>
        if isRange flags rest then
          let (atom, rest) ← readAtom? flags (skipSpace flags (rest.drop 1))
          match atom with
          | .literal high =>
            if low ≤ high then readItems? fuel flags left (.union s (.range low.toNat high.toNat)) rest
            else Option.none
          | _ => Option.none
        else readItems? fuel flags left (.union s (.single low)) rest

end

def readCount? (cs : List Char) : Option (Nat × List Char) :=
  let (digits, rest) := (cs.dropWhile isBlank).span Char.isDigit
  let n := digits.foldl (fun n c => 10 * n + (c.toNat - '0'.toNat)) 0
  if digits.isEmpty || 2 ^ 32 ≤ n then Option.none else some (n, rest.dropWhile isBlank)

def readBounds? (cs : List Char) : Option ((Nat × Option Nat) × List Char) := do
  let (least, rest) ← readCount? cs
  match rest with
  | '\x7d' :: rest => some ((least, some least), rest)
  | ',' :: rest =>
    match rest.dropWhile isBlank with
    | '\x7d' :: rest => some ((least, Option.none), rest)
    | rest =>
      let (most, rest) ← readCount? rest
      match rest with
      | '\x7d' :: rest => if least ≤ most then some ((least, some most), rest) else Option.none
      | _ => Option.none
  | _ => Option.none

def readFlags? (flags : Flags) (value : Bool) (seen : List Char) : List Char → Option (Flags × Bool × List Char)
  | [] => Option.none
  | c :: rest =>
    if c = ':' ∨ c = ')' then
      if seen.head? = some '-' ∨ (c = ')' ∧ seen.isEmpty) then Option.none
      else some (flags, c = ':', rest)
    else if seen.contains c then Option.none
    else if c = '-' then readFlags? flags false ('-' :: seen) rest
    else do readFlags? (← flags.set? value c) value (c :: seen) rest

def readName? (cs : List Char) : Option (String × List Char) :=
  match cs.span (· != '>') with
  | (name, _ :: rest) =>
    let later (c : Char) : Bool := isAlphanumeric c || c == '_' || c == '.' || c == '[' || c == ']'
    match name with
    | first :: others =>
      if (isAlphabetic first || first == '_') && others.all later then some (String.ofList name, rest)
      else Option.none
    | [] => Option.none
  | _ => Option.none

inductive Opening where
  | group (flags : Flags)
  | setting (flags : Flags)
  | named (name : String)

def readOpening? (flags : Flags) (cs : List Char) : Option (Opening × List Char) :=
  match cs with
  | '?' :: '<' :: '=' :: _ | '?' :: '<' :: '!' :: _ => Option.none
  | '?' :: 'P' :: '<' :: rest | '?' :: '<' :: rest => (readName? rest).map fun r => (.named r.1, r.2)
  | '?' :: rest =>
    (readFlags? flags true [] rest).map fun (flags, own, rest) =>
      (if own then .group flags else .setting flags, rest)
  | cs => some (.group flags, cs)

def repeatLast? (least : Nat) (most : Option Nat) : List (Option Pattern) → Option (List (Option Pattern))
  | some p :: items => some (some (.times p least most) :: items)
  | _ => Option.none

def dropLazy : List Char → List Char
  | '?' :: rest => rest
  | cs => cs

def sequence (items : List (Option Pattern)) : Pattern :=
  (items.reverse.filterMap fun p => p).foldr both nothing

def choice (done : List Pattern) (last : Pattern) : Pattern := done.foldl (fun p q => either q p) last

/-- A sequence of items and its alternatives, up to the end of the text or a closing parenthesis.
`done` holds the alternatives before this one and `items` the items so far, the last first. -/
def readAlternatives? (fuel : Nat) (flags : Flags) (names : List String) (done : List Pattern)
    (items : List (Option Pattern)) (cs : List Char) : Option (Pattern × List String × List Char) :=
  match fuel with
  | 0 => Option.none
  | fuel + 1 =>
    let next (p : Pattern) (rest : List Char) :=
      readAlternatives? fuel flags names done (some p :: items) rest
    let again (least : Nat) (most : Option Nat) (rest : List Char) := do
      readAlternatives? fuel flags names done (← repeatLast? least most items) (dropLazy rest)
    match skipSpace flags cs with
    | [] => some (choice done (sequence items), names, [])
    | ')' :: rest => some (choice done (sequence items), names, ')' :: rest)
    | '|' :: rest => readAlternatives? fuel flags names (sequence items :: done) [] rest
    | '*' :: rest => again 0 Option.none rest
    | '+' :: rest => again 1 Option.none rest
    | '?' :: rest => again 0 (some 1) rest
    | '\x7b' :: rest => do
      let ((least, most), rest) ← readBounds? rest
      again least most (skipSpace flags rest)
    | '(' :: rest => do
      let (opening, rest) ← readOpening? flags rest
      match opening with
      | .setting flags => readAlternatives? fuel flags names done (Option.none :: items) rest
      | .group inner =>
        let (p, names, rest) ← readAlternatives? fuel inner names [] [] rest
        match rest with
        | ')' :: rest => readAlternatives? fuel flags names done (some p :: items) rest
        | _ => Option.none
      | .named name =>
        if names.contains name then Option.none
        let (p, names, rest) ← readAlternatives? fuel flags (name :: names) [] [] rest
        match rest with
        | ')' :: rest => readAlternatives? fuel flags names done (some p :: items) rest
        | _ => Option.none
    | '[' :: rest => do
      let (s, rest) ← readSet? fuel flags rest
      next (.set s) rest
    | '.' :: rest => do next (.set (← flags.dot?)) rest
    | '^' :: rest => next (.place flags.lineStart) rest
    | '$' :: rest => next (.place flags.lineEnd) rest
    | cs => do
      let (atom, rest) ← readAtom? flags cs
      match atom with
      | .literal c => next (.set (flags.cased (.single c))) rest
      | .set s => next (.set s) rest
      | .place p => next (.place p) rest

def read? (text : String) : Option Pattern :=
  let cs := text.toList
  match readAlternatives? (2 * cs.length + 2) Flags.none [] [] [] cs with
  | some (p, _, []) => if p.size ≤ maxSize then some p else Option.none
  | _ => Option.none

end SymbolicQuery.Text.Pattern
