import Mathlib.Data.List.TakeWhile
import SymbolicQuery.Proofs.Result
import SymbolicQuery.Token.Reader

/-! How tokens are spelled. A token is read off a text exactly if the text starts with a spelling of it and goes on in a way
that does not make the token longer. -/
namespace SymbolicQuery.Token

variable {c quote : Char} {cs raw tail content rest : List Char} {t : Token} {n p start : Nat}

/-- The characters of a string behind its first quote, its last one among them, and what they stand for. -/
inductive Quoted (quote : Char) : List Char → List Char → Prop where
  | close : Quoted quote [quote] []
  | escape {c d : Char} {raw content : List Char} (stands : unescape? c = some d) (rest : Quoted quote raw content) :
      Quoted quote ('\\' :: c :: raw) (d :: content)
  | plain {c : Char} {raw content : List Char} (inner : c ≠ quote) (bare : c ≠ '\\') (rest : Quoted quote raw content) :
      Quoted quote (c :: raw) (c :: content)

def symbol? : Token → Option (List Char)
  | dollar => some ['$']
  | arrow => some ['=', '>']
  | assign => some ['=']
  | equal => some ['=', '=']
  | notEqual => some ['!', '=']
  | less => some ['<']
  | greater => some ['>']
  | lessEqual => some ['<', '=']
  | greaterEqual => some ['>', '=']
  | plus => some ['+']
  | minus => some ['-']
  | star => some ['*']
  | slash => some ['/']
  | percent => some ['%']
  | bang => some ['!']
  | openParen => some ['(']
  | closeParen => some [')']
  | openBrace => some ['\x7b']
  | closeBrace => some ['\x7d']
  | dot => some ['.']
  | comma => some [',']
  | _ => none

inductive Spells : List Char → Token → Prop where
  | symbol {t : Token} {raw : List Char} (shown : t.symbol? = some raw) : Spells raw t
  | string {quote : Char} {raw content : List Char} (either : quote = '"' ∨ quote = '\'') (body : Quoted quote raw content) :
      Spells (quote :: raw) (.string (String.ofList content))
  | word {c : Char} {rest : List Char} (clear : Text.isBlank c = false) (start : isWordStart c = true)
      (parts : ∀ d ∈ rest, isWordPart d = true) : Spells (c :: rest) (ofWord (String.ofList (c :: rest)))
  | integer {digits : List Char} {n : Int64} (any : digits ≠ []) (all : ∀ d ∈ digits, d.isDigit = true)
      (value : int64? (Binary64.digitsValue digits) = some n) : Spells digits (.integer n)
  | float {whole places : List Char} {x : Binary64} (any : whole ≠ []) (all : ∀ d ∈ whole, d.isDigit = true)
      (more : places ≠ []) (each : ∀ d ∈ places, d.isDigit = true)
      (value : Binary64.read? (String.ofList (whole ++ '.' :: places)) = some x) : Spells (whole ++ '.' :: places) (.float x)

/-- Whether a text leaves a token that stands before it as it is. -/
def Apart : Token → List Char → Prop
  | assign, tail => ∀ c ∈ tail.head?, c ≠ '=' ∧ c ≠ '>'
  | greater, tail | less, tail | bang, tail => ∀ c ∈ tail.head?, c ≠ '='
  | integer _, tail =>
    (∀ c ∈ tail.head?, c.isDigit = false) ∧ ∀ d rest, tail = '.' :: d :: rest → d.isDigit = false
  | float _, tail => ∀ c ∈ tail.head?, c.isDigit = false
  | boolean _, tail | null, tail | identifier _, tail | newWord, tail | asWord, tail | andWord, tail | orWord, tail =>
    ∀ c ∈ tail.head?, isWordPart c = false
  | _, _ => True

theorem headBefore {before after : List Char} (inside : c ∈ before.head?) : c ∈ (before ++ after).head? := by
  cases before with
  | nil => cases inside
  | cons d more => exact inside

theorem Apart.before {before after : List Char} (apart : t.Apart (before ++ after)) : t.Apart before := by
  cases t with
  | integer n =>
    refine ⟨fun c inside => apart.1 c (headBefore inside), fun d rest same => apart.2 d (rest ++ after) ?_⟩
    rw [same]
    rfl
  | assign | greater | less | bang | float x | boolean b | null | identifier name | newWord | asWord | andWord | orWord =>
    exact fun c inside => apart c (headBefore inside)
  | _ => trivial

theorem wordApart {w : String} : (ofWord w).Apart tail ↔ ∀ c ∈ tail.head?, isWordPart c = false := by
  unfold ofWord
  split <;> exact Iff.rfl

theorem takeWhileStops {P : Char → Bool} (all : ∀ d ∈ raw, P d = true) (stops : ∀ d ∈ tail.head?, P d = false) :
    (raw ++ tail).takeWhile P = raw := by
  rw [List.takeWhile_append_of_pos all]
  cases tail with
  | nil => simp
  | cons d rest => simp [stops d rfl]

theorem takenWhile {P : Char → Bool} (cs : List Char) :
    ∃ tail, cs = cs.takeWhile P ++ tail ∧ (∀ d ∈ cs.takeWhile P, P d = true) ∧ ∀ d ∈ tail.head?, P d = false := by
  refine ⟨cs.dropWhile P, List.takeWhile_append_dropWhile.symm, fun d inside => List.mem_takeWhile_imp inside, ?_⟩
  intro d first
  have stopped := List.head?_dropWhile_not P cs
  rw [first] at stopped
  simpa using stopped

theorem quotedBody (bare : quote ≠ '\\') (body : Quoted quote raw content) :
    stringBody quote start p (raw ++ tail) = .ok (content, raw.length) := by
  induction body generalizing p with
  | close =>
    cases tail with
    | nil => simp [stringBody]
    | cons d rest => simp [stringBody, bare]
  | escape stands rest ih =>
    simp only [List.cons_append, stringBody, stands, ih]
    rfl
  | plain inner bare rest ih =>
    rename_i c raw content
    rw [List.cons_append, stringBody]
    · simp only [if_neg inner, ih]
      rfl
    · rintro d more rfl
      exact absurd rfl bare

theorem bodyQuoted (read : stringBody quote start p cs = .ok (content, n)) :
    ∃ raw tail, cs = raw ++ tail ∧ n = raw.length ∧ Quoted quote raw content := by
  fun_induction stringBody quote start p cs generalizing content n with
  | case1 p c rest refused => cases read
  | case2 p c rest d stands ih =>
    obtain ⟨⟨content', size⟩, body, last⟩ := okBind.mp read
    cases last
    obtain ⟨raw, tail, rfl, rfl, quoted⟩ := ih body
    exact ⟨_, tail, rfl, rfl, .escape stands quoted⟩
  | case3 p rest other =>
    cases read
    exact ⟨[quote], rest, rfl, rfl, .close⟩
  | case4 p c rest other inner ih =>
    obtain ⟨⟨content', size⟩, body, last⟩ := okBind.mp read
    cases last
    obtain ⟨raw, tail, rfl, rfl, quoted⟩ := ih body
    refine ⟨_, tail, rfl, rfl, .plain inner ?_ quoted⟩
    rintro rfl
    -- a backslash that another character follows starts an escape
    cases ends : raw ++ tail with
    | nil => rw [ends] at body; cases body
    | cons d more => exact other d more rfl ends
  | case5 p => cases read

theorem signSpelled (taken : sign? c rest = some (t, n)) :
    ∃ raw tail, t.symbol? = some raw ∧ c :: rest = raw ++ tail ∧ n = raw.length ∧ t.Apart tail := by
  have noHead {d : Char} (not : ∀ more, rest = d :: more → False) : ∀ e ∈ rest.head?, e ≠ d := by
    rintro e first rfl
    exact not _ (List.cons_head?_tail first).symm
  unfold sign? at taken
  split at taken <;> cases taken <;> refine ⟨_, _, rfl, rfl, rfl, ?_⟩
  case h_3 => exact fun e first => ⟨noHead (by assumption) e first, noHead (by assumption) e first⟩
  case h_5 | h_7 | h_9 => exact noHead (by assumption)
  all_goals trivial

theorem signRead (shown : t.symbol? = some raw) (apart : t.Apart tail) :
    ∃ c rest, raw ++ tail = c :: rest ∧ sign? c rest = some (t, raw.length) ∧ Text.isBlank c = false := by
  cases t <;> cases shown
  case assign | less | greater | bang =>
    cases tail with
    | nil => exact ⟨_, _, rfl, rfl, by decide⟩
    | cons d more =>
      have := apart d rfl
      refine ⟨_, _, rfl, ?_, by decide⟩
      simp [sign?, this]
  all_goals exact ⟨_, _, rfl, rfl, by decide⟩

theorem symbolStart (shown : t.symbol? = some (c :: raw)) :
    c ≠ '"' ∧ c ≠ '\'' ∧ isWordStart c = false ∧ c.isDigit = false := by
  cases t <;> cases shown <;> decide

theorem noSign (never : ∀ t raw, symbol? t ≠ some (c :: raw)) : sign? c rest = none := by
  cases taken : sign? c rest with
  | none => rfl
  | some sign =>
    obtain ⟨raw, tail, shown, same, _, _⟩ := signSpelled taken
    cases raw with
    | nil => exact absurd shown (by cases sign.1 <;> simp [symbol?])
    | cons d more =>
      cases same
      exact absurd shown (never _ _)

theorem noSignOf (other : c = '"' ∨ c = '\'' ∨ isWordStart c = true ∨ c.isDigit = true) : sign? c rest = none := by
  refine noSign fun t raw shown => ?_
  obtain ⟨double, single, word, digit⟩ := symbolStart shown
  rcases other with same | same | same | same
  · exact double same
  · exact single same
  · rw [word] at same
    cases same
  · rw [digit] at same
    cases same

theorem digitRange (digit : c.isDigit = true) : 48 ≤ c.toNat ∧ c.toNat ≤ 57 := by
  simp only [Char.isDigit, Bool.and_eq_true, decide_eq_true_eq, ge_iff_le, UInt32.le_iff_toNat_le] at digit
  exact digit

theorem digitClear (digit : c.isDigit = true) : Text.isBlank c = false := by
  obtain ⟨low, high⟩ := digitRange digit
  simp only [Text.isBlank, Bool.or_eq_false_iff, Bool.and_eq_false_iff, decide_eq_false_iff_not, beq_eq_false_iff_ne]
  omega

theorem digitWord (digit : c.isDigit = true) : isWordStart c = false := by
  obtain ⟨_, high⟩ := digitRange digit
  have plain : c.toNat < 128 := by omega
  have noLine : c ≠ '_' := by
    rintro rfl
    revert high
    decide
  have noLetter : c.isAlpha = false := by
    change (decide ('A'.val ≤ c.val ∧ c.val ≤ 'Z'.val) || (decide ('a'.val ≤ c.val) && decide (c.val ≤ 'z'.val))) = false
    simp only [Bool.or_eq_false_iff, ← Bool.decide_and, decide_eq_false_iff_not, UInt32.le_iff_toNat_le]
    constructor <;> rintro ⟨low, _⟩
    · change 65 ≤ c.toNat at low
      omega
    · change 97 ≤ c.toNat at low
      omega
  simp only [isWordStart, Text.isAlphabetic, if_pos plain, noLetter, noLine, decide_false, Bool.or_false]

theorem firstDigit (digit : c.isDigit = true) : first p c rest = number p (c :: rest) := by
  have letter : ¬ (c = '"' ∨ c = '\'') := by rintro (rfl | rfl) <;> revert digit <;> decide
  simp only [first, noSignOf (.inr (.inr (.inr digit))), if_neg letter, digitWord digit, digit, Bool.false_eq_true, if_false,
    if_true]

section Numbers
variable {whole places : List Char}

theorem partsPoint (all : ∀ d ∈ whole, d.isDigit = true) (each : ∀ d ∈ places, d.isDigit = true)
    (stops : ∀ d ∈ tail.head?, d.isDigit = false) :
    numberParts (whole ++ '.' :: (places ++ tail)) = (whole, places) := by
  have first : (whole ++ '.' :: (places ++ tail)).takeWhile Char.isDigit = whole :=
    takeWhileStops all fun d here => by cases here; decide
  simp only [numberParts, first, List.drop_left, takeWhileStops each stops]

theorem partsWhole (all : ∀ d ∈ whole, d.isDigit = true) (stops : ∀ d ∈ tail.head?, d.isDigit = false)
    (noPoint : ∀ more, tail ≠ '.' :: more) : numberParts (whole ++ tail) = (whole, []) := by
  simp only [numberParts, takeWhileStops all stops, List.drop_left]

theorem numberSpelled (digit : c.isDigit = true) (read : number p (c :: rest) = .ok (t, n)) :
    ∃ raw tail, c :: rest = raw ++ tail ∧ n = raw.length ∧ Spells raw t ∧ t.Apart tail := by
  obtain ⟨tail, split, all, stops⟩ := takenWhile (P := Char.isDigit) (c :: rest)
  have any : (c :: rest).takeWhile Char.isDigit ≠ [] := by simp [digit]
  generalize (c :: rest).takeWhile Char.isDigit = whole at split all any
  rw [split] at read ⊢
  have asWhole (parts : numberParts (whole ++ tail) = (whole, []))
      (noPlaces : ∀ d more, tail = '.' :: d :: more → d.isDigit = false) :
      ∃ raw after, whole ++ tail = raw ++ after ∧ n = raw.length ∧ Spells raw t ∧ t.Apart after := by
    simp only [number, parts, List.isEmpty_nil, if_true] at read
    split at read
    · rename_i value known
      cases read
      exact ⟨whole, tail, rfl, rfl, .integer any all known, stops, noPlaces⟩
    · cases read
  by_cases point : ∃ more, tail = '.' :: more
  · obtain ⟨more, rfl⟩ := point
    obtain ⟨after, split', each, stops'⟩ := takenWhile (P := Char.isDigit) more
    generalize more.takeWhile Char.isDigit = places at split' each
    subst split'
    have parts := partsPoint all each stops'
    cases places with
    | nil =>
      refine asWhole parts fun d more same => stops' d ?_
      cases same
      rfl
    | cons d places =>
      simp only [number, parts, List.isEmpty_cons, Bool.false_eq_true, if_false] at read
      split at read
      · rename_i value known
        cases read
        refine ⟨whole ++ '.' :: d :: places, after, by simp, rfl, .float any all (by simp) each known, stops'⟩
      · cases read
  · have noPoint : ∀ more, tail ≠ '.' :: more := fun more same => point ⟨more, same⟩
    exact asWhole (partsWhole all stops noPoint) fun d more same => absurd same (noPoint _)

theorem integerRead {m : Int64} (all : ∀ d ∈ whole, d.isDigit = true)
    (value : int64? (Binary64.digitsValue whole) = some m) (apart : (integer m).Apart tail) :
    number p (whole ++ tail) = .ok (.integer m, whole.length) := by
  have parts : numberParts (whole ++ tail) = (whole, []) := by
    by_cases point : ∃ more, tail = '.' :: more
    · obtain ⟨more, rfl⟩ := point
      refine partsPoint all (List.forall_mem_nil _) fun d here => ?_
      exact apart.2 d _ (congrArg ('.' :: ·) (List.cons_head?_tail here).symm)
    · exact partsWhole all apart.1 fun more same => point ⟨more, same⟩
  simp [number, parts, value]

theorem floatRead {x : Binary64} (all : ∀ d ∈ whole, d.isDigit = true) (more : places ≠ [])
    (each : ∀ d ∈ places, d.isDigit = true)
    (value : Binary64.read? (String.ofList (whole ++ '.' :: places)) = some x) (apart : (float x).Apart tail) :
    number p (whole ++ '.' :: places ++ tail) = .ok (.float x, (whole ++ '.' :: places).length) := by
  have parts : numberParts (whole ++ '.' :: places ++ tail) = (whole, places) := by
    rw [List.append_assoc]
    exact partsPoint all each apart
  simp only [number, parts, List.isEmpty_iff, if_neg more, value]

end Numbers

theorem firstSpelled (clear : Text.isBlank c = false) (read : first p c rest = .ok (t, n)) :
    ∃ raw tail, c :: rest = raw ++ tail ∧ n = raw.length ∧ Spells raw t ∧ t.Apart tail := by
  unfold first at read
  split at read
  · cases read
    obtain ⟨raw, tail, shown, same, size, apart⟩ := signSpelled (by assumption)
    exact ⟨raw, tail, same, size, .symbol shown, apart⟩
  · split at read
    · rename_i quote
      obtain ⟨⟨content, size⟩, body, last⟩ := okBind.mp read
      cases last
      obtain ⟨raw, tail, rfl, rfl, quoted⟩ := bodyQuoted body
      exact ⟨c :: raw, tail, rfl, rfl, .string quote quoted, trivial⟩
    · split at read
      · rename_i start
        cases read
        obtain ⟨tail, same, parts, stops⟩ := takenWhile (P := isWordPart) rest
        generalize rest.takeWhile isWordPart = word at *
        subst same
        exact ⟨c :: word, tail, rfl, rfl, .word clear start parts, wordApart.mpr stops⟩
      · split at read
        · exact numberSpelled (by assumption) read
        · cases read

theorem numberRead {digits : List Char} (any : digits ≠ []) (all : ∀ d ∈ digits, d.isDigit = true)
    (read : ∀ p, number p (digits ++ tail) = .ok (t, n)) :
    ∃ c rest, digits ++ tail = c :: rest ∧ Text.isBlank c = false ∧ ∀ p, first p c rest = .ok (t, n) := by
  cases digits with
  | nil => exact absurd rfl any
  | cons c rest =>
    have digit := all c List.mem_cons_self
    exact ⟨c, rest ++ tail, rfl, digitClear digit, fun p => (firstDigit digit).trans (read p)⟩

theorem spellsRead (spells : Spells raw t) (apart : t.Apart tail) :
    ∃ c rest, raw ++ tail = c :: rest ∧ Text.isBlank c = false ∧ ∀ p, first p c rest = .ok (t, raw.length) := by
  cases spells with
  | symbol shown =>
    obtain ⟨c, rest, same, taken, clear⟩ := signRead shown apart
    exact ⟨c, rest, same, clear, fun p => by simp only [first, taken]⟩
  | string either body =>
    rename_i quote raw content
    have bare : quote ≠ '\\' := by rcases either with rfl | rfl <;> decide
    refine ⟨quote, raw ++ tail, rfl, by rcases either with rfl | rfl <;> decide, fun p => ?_⟩
    simp only [first, noSignOf (either.imp_right .inl), if_pos either, quotedBody bare body]
    rfl
  | word clear start parts =>
    rename_i c rest
    have letter : ¬ (c = '"' ∨ c = '\'') := by rintro (rfl | rfl) <;> revert start <;> decide
    refine ⟨c, rest ++ tail, rfl, clear, fun p => ?_⟩
    simp only [first, noSignOf (.inr (.inr (.inl start))), if_neg letter, start, if_true,
      takeWhileStops parts (wordApart.mp apart)]
  | integer any all value => exact numberRead any all fun p => integerRead all value apart
  | float any all more each value =>
    rw [List.append_assoc]
    refine numberRead any all fun p => ?_
    rw [← List.append_assoc]
    exact floatRead all more each value apart

end SymbolicQuery.Token
