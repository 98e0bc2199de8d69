import SymbolicQuery.Json

/-! Reading documents. Text is cut into marks, numbers, words and strings; a stack of open
brackets then takes one token after the other. Brackets may be open 127 deep. -/
namespace SymbolicQuery.Json

inductive Mark where
  | openArray | closeArray | openObject | closeObject | colon | comma
  deriving DecidableEq, Repr

inductive Token where
  | mark (m : Mark)
  | scalar (j : Json)
  | string (s : String)

def mark? (c : Char) : Option Mark :=
  if c = '[' then some .openArray
  else if c = ']' then some .closeArray
  else if c = '\x7b' then some .openObject
  else if c = '\x7d' then some .closeObject
  else if c = ':' then some .colon
  else if c = ',' then some .comma
  else none

inductive Piece where
  | char (c : Char)
  | unit (n : Nat)

def hexDigit? (c : Char) : Option Nat :=
  if c.isDigit then some (c.toNat - '0'.toNat)
  else if 'a' ≤ c ∧ c ≤ 'f' then some (c.toNat - 'a'.toNat + 10)
  else if 'A' ≤ c ∧ c ≤ 'F' then some (c.toNat - 'A'.toNat + 10)
  else none

def hexValue? (digits : List Char) : Option Nat :=
  digits.foldlM (fun n c => (hexDigit? c).map (16 * n + ·)) 0

def shortEscape? (c : Char) : Option Char :=
  if c = '"' ∨ c = '\\' ∨ c = '/' then some c
  else if c = 'b' then some '\x08'
  else if c = 'f' then some '\x0c'
  else if c = 'n' then some '\n'
  else if c = 'r' then some '\r'
  else if c = 't' then some '\t'
  else none

def pieces? : List Char → Option (List Piece)
  | [] => some []
  | '\\' :: 'u' :: a :: b :: c :: d :: rest => do
    let n ← hexValue? [a, b, c, d]
    return .unit n :: (← pieces? rest)
  | '\\' :: c :: rest => do
    let c ← shortEscape? c
    return .char c :: (← pieces? rest)
  | c :: rest => do
    if c.toNat < 0x20 ∨ c = '\\' then none
    else return .char c :: (← pieces? rest)

def joinHalves? : List Piece → Option (List Char)
  | [] => some []
  | .char c :: rest => (joinHalves? rest).map (c :: ·)
  | .unit high :: .unit low :: rest =>
    if 0xd800 ≤ high ∧ high < 0xdc00 then
      if 0xdc00 ≤ low ∧ low < 0xe000 then
        (joinHalves? rest).map (Char.ofNat (0x10000 + (high - 0xd800) * 0x400 + (low - 0xdc00)) :: ·)
      else none
    else if 0xdc00 ≤ high ∧ high < 0xe000 then none
    else (joinHalves? (.unit low :: rest)).map (Char.ofNat high :: ·)
  | .unit n :: rest =>
    if 0xd800 ≤ n ∧ n < 0xe000 then none else (joinHalves? rest).map (Char.ofNat n :: ·)

/-- The characters up to the closing quote, escapes as they stand, and those after it. -/
def splitQuoted : List Char → Option (List Char × List Char)
  | [] => none
  | '"' :: rest => some ([], rest)
  | '\\' :: c :: rest => (splitQuoted rest).map fun r => ('\\' :: c :: r.1, r.2)
  | c :: rest => (splitQuoted rest).map fun r => (c :: r.1, r.2)

theorem splitQuotedShorter {cs body rest : List Char} (h : splitQuoted cs = some (body, rest)) :
    rest.length < cs.length := by
  fun_induction splitQuoted cs generalizing body rest with
  | case1 => simp at h
  | case2 tail => simp at h; simp [h.2]
  | case3 c tail ih =>
    obtain ⟨r, hr, same⟩ := Option.map_eq_some_iff.1 h
    have := ih hr
    simp at same; simp [← same.2]; omega
  | case4 c tail _ _ ih =>
    obtain ⟨r, hr, same⟩ := Option.map_eq_some_iff.1 h
    have := ih hr
    simp at same; simp [← same.2]; omega

/-- The digits of a whole or fractional part, kept while their value fits 64 bits. Gives the
value and the number of digits that were kept. -/
def keepDigits (value : Nat) : List Char → Nat × Nat
  | [] => (value, 0)
  | c :: rest =>
    let next := 10 * value + (c.toNat - '0'.toNat)
    if next < 2 ^ 64 then
      let (value, kept) := keepDigits next rest
      (value, kept + 1)
    else (value, 0)

def powerOfTen (n : Nat) : Binary64 := Binary64.ofNat (10 ^ n)

/-- Divides by powers of ten, at most `10 ^ 308` at a time; a few such steps reach zero. -/
def scaleDown (x : Binary64) : (steps places : Nat) → Binary64
  | 0, _ => x
  | steps + 1, places =>
    if places ≤ 308 then x.div (powerOfTen places)
    else scaleDown (x.div (powerOfTen 308)) steps (places - 308)

def scale? (digits : Nat) (exponent : Int) : Option Binary64 :=
  let x := Binary64.ofNat digits
  if exponent < 0 then some (scaleDown x 5 exponent.natAbs)
  else if x.isZero then some x
  else if 308 < exponent then none
  else
    let y := x.mul (powerOfTen exponent.toNat)
    if y.isInfinite then none else some y

def real? (negative : Bool) (integral places : List Char) (exponent : Int) : Option Json := do
  let (value, kept) := keepDigits 0 integral
  let (value, keptPlaces) := keepDigits value places
  let x ← scale? value (exponent + (integral.length - kept : Nat) - keptPlaces)
  return .real (if negative then x.neg else x)

def number? (text : List Char) : Option Json := do
  let (negative, body) := match text with
    | '-' :: cs => (true, cs)
    | cs => (false, cs)
  let (integral, rest) := body.span Char.isDigit
  if integral.isEmpty || (1 < integral.length && integral.head? == some '0') then none
  else if rest.isEmpty then
    let n := Binary64.digitsValue integral
    if !negative && n < 2 ^ 64 then some (.whole n)
    else if negative && 0 < n && n ≤ 2 ^ 63 then some (.whole (-n))
    else real? negative integral [] 0
  else
    let (places, rest) ← match rest with
      | '.' :: rest =>
        let (places, rest) := rest.span Char.isDigit
        if places.isEmpty then none else some (places, rest)
      | rest => some ([], rest)
    let exponent ← Binary64.readExponent? rest
    real? negative integral places exponent

def word? (text : List Char) : Option Json :=
  if text = "null".toList then some .null
  else if text = "true".toList then some (.bool true)
  else if text = "false".toList then some (.bool false)
  else none

def isNumberChar (c : Char) : Bool := c.isDigit || c == '-' || c == '+' || c == '.' || c == 'e' || c == 'E'

def isBlank (c : Char) : Bool := c == ' ' || c == '\n' || c == '\t' || c == '\r'

theorem dropWhileShorter (p : Char → Bool) (cs : List Char) : (cs.dropWhile p).length ≤ cs.length := by
  induction cs with
  | nil => simp
  | cons c cs ih => by_cases h : p c <;> simp [h]; omega

def tokens? (cs : List Char) : Option (List Token) :=
  match cs with
  | [] => some []
  | c :: rest =>
    if isBlank c then tokens? rest
    else if c = '"' then
      match h : splitQuoted rest with
      | none => none
      | some (body, after) => do
        have := splitQuotedShorter h
        let chars ← joinHalves? (← pieces? body)
        return .string (String.ofList chars) :: (← tokens? after)
    else match mark? c with
      | some m => (tokens? rest).map (.mark m :: ·)
      | none =>
        have := dropWhileShorter isNumberChar rest
        have := dropWhileShorter Char.isAlpha rest
        if c.isDigit || c == '-' then do
          let j ← number? (c :: rest.takeWhile isNumberChar)
          return .scalar j :: (← tokens? (rest.dropWhile isNumberChar))
        else do
          let j ← word? (c :: rest.takeWhile Char.isAlpha)
          return .scalar j :: (← tokens? (rest.dropWhile Char.isAlpha))
  termination_by cs.length
  decreasing_by all_goals simp_wf <;> omega

inductive Frame where
  | array (items : List Json)
  | object (fields : List (String × Json)) (key : String)

inductive Next where
  | value | firstItem | key | firstKey | colon | separator | done
  deriving DecidableEq

structure Progress where
  stack : List Frame
  next : Next
  result : Json

def Progress.take (j : Json) : List Frame → Progress
  | [] => ⟨[], .done, j⟩
  | .array items :: rest => ⟨.array (j :: items) :: rest, .separator, .null⟩
  | .object fields key :: rest => ⟨.object ((key, j) :: fields) key :: rest, .separator, .null⟩

def Progress.enter (p : Progress) (frame : Frame) (next : Next) : Option Progress :=
  if p.stack.length < 127 then some ⟨frame :: p.stack, next, .null⟩ else none

def Progress.step (p : Progress) (t : Token) : Option Progress :=
  match p.next, t, p.stack with
  | .value, .scalar j, stack | .firstItem, .scalar j, stack => some (.take j stack)
  | .value, .string s, stack | .firstItem, .string s, stack => some (.take (.string s) stack)
  | .value, .mark .openArray, _ | .firstItem, .mark .openArray, _ => p.enter (.array []) .firstItem
  | .value, .mark .openObject, _ | .firstItem, .mark .openObject, _ => p.enter (.object [] "") .firstKey
  | .firstItem, .mark .closeArray, .array _ :: rest => some (.take (.array []) rest)
  | .firstKey, .mark .closeObject, .object _ _ :: rest => some (.take (.object []) rest)
  | .firstKey, .string s, .object fields _ :: rest | .key, .string s, .object fields _ :: rest =>
    some ⟨.object fields s :: rest, .colon, .null⟩
  | .colon, .mark .colon, stack => some ⟨stack, .value, .null⟩
  | .separator, .mark .comma, .array items :: rest => some ⟨.array items :: rest, .value, .null⟩
  | .separator, .mark .comma, .object fields key :: rest => some ⟨.object fields key :: rest, .key, .null⟩
  | .separator, .mark .closeArray, .array items :: rest => some (.take (.array items.reverse) rest)
  | .separator, .mark .closeObject, .object fields _ :: rest =>
    some (.take (.object (Fields.ofList fields.reverse)) rest)
  | _, _, _ => none

def read? (text : String) : Option Json := do
  let tokens ← tokens? text.toList
  let p ← tokens.foldlM Progress.step ⟨[], .value, .null⟩
  if p.next = .done then some p.result else none

end SymbolicQuery.Json
