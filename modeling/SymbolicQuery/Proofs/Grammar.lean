import SymbolicQuery.Json.Reader
import SymbolicQuery.Proofs.Spelling

/-! The texts of documents. A text is read exactly if it writes a document and never has more than 127 brackets open. -/
namespace SymbolicQuery.Json

inductive Piece.Spells : Piece → List Char → Prop where
  | plain {c : Char} (shown : ¬ c.toNat < 0x20) (inner : c ≠ '"') (bare : c ≠ '\\') : Spells (.char c) [c]
  | escape {c d : Char} (stands : shortEscape? c = some d) : Spells (.char d) ['\\', c]
  | unit {a b c d : Char} {n : Nat} (value : hexValue? [a, b, c, d] = some n) : Spells (.unit n) ['\\', 'u', a, b, c, d]

/-- The characters of a string behind its first quote, its last one among them, and what they stand for. -/
inductive Quoted : List Char → List Char → Prop where
  | close : Quoted ['"'] []
  | char {c : Char} {raw cs content : List Char} (spells : Piece.Spells (.char c) raw) (rest : Quoted cs content) :
      Quoted (raw ++ cs) (c :: content)
  | unit {n : Nat} {raw cs content : List Char} (spells : Piece.Spells (.unit n) raw)
      (alone : ¬ (0xd800 ≤ n ∧ n < 0xe000)) (rest : Quoted cs content) : Quoted (raw ++ cs) (Char.ofNat n :: content)
  | halves {high low : Nat} {raw raw' cs content : List Char} (spells : Piece.Spells (.unit high) raw)
      (spells' : Piece.Spells (.unit low) raw') (first : 0xd800 ≤ high ∧ high < 0xdc00)
      (second : 0xdc00 ≤ low ∧ low < 0xe000) (rest : Quoted cs content) :
      Quoted (raw ++ (raw' ++ cs)) (Char.ofNat (0x10000 + (high - 0xd800) * 0x400 + (low - 0xdc00)) :: content)

/-- The tokens of a text, with blanks between them. A number and a word go as far as they can. -/
inductive Cuts : List Char → List Token → Prop where
  | done : Cuts [] []
  | blank {c : Char} {cs : List Char} {ts : List Token} (blank : isBlank c = true) (later : Cuts cs ts) : Cuts (c :: cs) ts
  | mark {c : Char} {m : Mark} {cs : List Char} {ts : List Token} (mark : mark? c = some m) (later : Cuts cs ts) :
      Cuts (c :: cs) (.mark m :: ts)
  | string {raw content cs : List Char} {ts : List Token} (body : Quoted raw content) (later : Cuts cs ts) :
      Cuts ('"' :: raw ++ cs) (.string (String.ofList content) :: ts)
  | number {c : Char} {raw cs : List Char} {j : Json} {ts : List Token} (start : c.isDigit = true ∨ c = '-')
      (parts : ∀ d ∈ raw, isNumberChar d = true) (value : number? (c :: raw) = some j)
      (ends : ∀ d ∈ cs.head?, isNumberChar d = false) (later : Cuts cs ts) : Cuts (c :: raw ++ cs) (.scalar j :: ts)
  | word {raw cs : List Char} {j : Json} {ts : List Token} (value : word? raw = some j)
      (ends : ∀ d ∈ cs.head?, d.isAlpha = false) (later : Cuts cs ts) : Cuts (raw ++ cs) (.scalar j :: ts)

section Strings

variable {raw content body tail cs : List Char} {c : Char} {n high low : Nat} {p : Piece} {ps : List Piece}

theorem hexPlain (known : (hexDigit? c).isSome = true) : c ≠ '"' ∧ c ≠ '\\' := by
  constructor
  · rintro rfl
    exact absurd known (by decide)
  · rintro rfl
    exact absurd known (by decide)

theorem hexDigits {a b c d : Char} (value : hexValue? [a, b, c, d] = some n) :
    ∀ e ∈ [a, b, c, d], e ≠ '"' ∧ e ≠ '\\' := by
  have known : ∀ e ∈ [a, b, c, d], (hexDigit? e).isSome = true := by
    simp only [hexValue?, List.foldlM_cons, Option.bind_eq_bind, Option.bind_eq_some_iff, Option.map_eq_some_iff] at value
    obtain ⟨_, ⟨_, first, -⟩, _, ⟨_, second, -⟩, _, ⟨_, third, -⟩, _, ⟨_, fourth, -⟩, -⟩ := value
    simp [first, second, third, fourth]
  exact fun e inside => hexPlain (known e inside)

theorem splitPlain (inner : c ≠ '"') (bare : c ≠ '\\') :
    splitQuoted (c :: cs) = (splitQuoted cs).map fun r => (c :: r.1, r.2) := by
  rw [splitQuoted]
  · exact inner
  · rintro d more rfl
    exact absurd rfl bare

theorem splitSpelled (spells : p.Spells raw) :
    splitQuoted (raw ++ cs) = (splitQuoted cs).map fun r => (raw ++ r.1, r.2) := by
  cases spells with
  | plain shown inner bare => exact splitPlain inner bare
  | escape stands => exact splitQuoted.eq_3 _ _
  | @unit a b c d _ value =>
    have plain := hexDigits value
    simp only [List.mem_cons, List.not_mem_nil, or_false, forall_eq_or_imp, forall_eq] at plain
    obtain ⟨first, second, third, fourth⟩ := plain
    change splitQuoted ('\\' :: 'u' :: a :: b :: c :: d :: cs) = _
    rw [splitQuoted, splitPlain first.1 first.2, splitPlain second.1 second.2, splitPlain third.1 third.2,
      splitPlain fourth.1 fourth.2]
    cases splitQuoted cs <;> rfl

theorem piecesSpelled (spells : p.Spells raw) : pieces? (raw ++ cs) = (pieces? cs).map (p :: ·) := by
  cases spells with
  | @plain c shown inner bare =>
    rw [List.singleton_append, pieces?]
    · rw [if_neg (not_or.mpr ⟨shown, bare⟩)]
      cases pieces? cs <;> rfl
    all_goals
      intros
      contradiction
  | @escape c d stands =>
    change pieces? ('\\' :: c :: cs) = _
    rw [pieces?]
    · rw [stands]
      cases pieces? cs <;> rfl
    · rintro a b c d rest rfl
      cases stands
  | @unit a b c d _ value =>
    change pieces? ('\\' :: 'u' :: a :: b :: c :: d :: cs) = _
    rw [pieces?, value]
    cases pieces? cs <;> rfl

theorem piecesCases (pieces : pieces? body = some ps) (inner : ∀ c ∈ body.head?, c ≠ '"') :
    body = [] ∧ ps = [] ∨
      ∃ p ps' raw rest, ps = p :: ps' ∧ body = raw ++ rest ∧ p.Spells raw ∧ pieces? rest = some ps' := by
  fun_cases pieces? body with
  | case1 =>
    cases pieces
    exact .inl ⟨rfl, rfl⟩
  | case2 a b c d rest =>
    rw [pieces?] at pieces
    obtain ⟨n, value, pieces⟩ := Option.bind_eq_some_iff.mp pieces
    obtain ⟨_, later, same⟩ := Option.bind_eq_some_iff.mp pieces
    cases same
    exact .inr ⟨_, _, _, rest, rfl, rfl, .unit value, later⟩
  | case3 c rest other =>
    rw [pieces?.eq_3 c rest other] at pieces
    obtain ⟨d, stands, pieces⟩ := Option.bind_eq_some_iff.mp pieces
    obtain ⟨_, later, same⟩ := Option.bind_eq_some_iff.mp pieces
    cases same
    exact .inr ⟨_, _, _, rest, rfl, rfl, .escape stands, later⟩
  | case4 c rest other other' refused =>
    rw [pieces?.eq_4 c rest other other', if_pos refused] at pieces
    cases pieces
  | case5 c rest other other' shown =>
    rw [pieces?.eq_4 c rest other other', if_neg shown] at pieces
    obtain ⟨_, later, same⟩ := Option.bind_eq_some_iff.mp pieces
    cases same
    obtain ⟨shown, bare⟩ := not_or.mp shown
    exact .inr ⟨_, _, [c], rest, rfl, rfl, .plain shown (inner c rfl) bare, later⟩

theorem piecesOver (pieces : pieces? body = some []) (inner : ∀ c ∈ body.head?, c ≠ '"') : body = [] := by
  rcases piecesCases pieces inner with ⟨ended, -⟩ | ⟨_, _, _, _, more, -⟩
  · exact ended
  · cases more

theorem piecesFirst (pieces : pieces? body = some (p :: ps)) (inner : ∀ c ∈ body.head?, c ≠ '"') :
    ∃ raw rest, body = raw ++ rest ∧ p.Spells raw ∧ pieces? rest = some ps := by
  rcases piecesCases pieces inner with ⟨-, ended⟩ | ⟨_, _, raw, rest, same, whole, spells, later⟩
  · cases ended
  · cases same
    exact ⟨raw, rest, whole, spells, later⟩

theorem joinAlone (alone : ¬ (0xd800 ≤ n ∧ n < 0xe000)) :
    joinHalves? (.unit n :: ps) = (joinHalves? ps).map (Char.ofNat n :: ·) := by
  cases ps with
  | nil => simp [joinHalves?, alone]
  | cons p ps =>
    cases p with
    | char c => simp [joinHalves?, alone]
    | unit low => rw [joinHalves?, if_neg (by omega), if_neg (by omega)]

theorem joinTwo (first : 0xd800 ≤ high ∧ high < 0xdc00) (second : 0xdc00 ≤ low ∧ low < 0xe000) :
    joinHalves? (.unit high :: .unit low :: ps) =
      (joinHalves? ps).map (Char.ofNat (0x10000 + (high - 0xd800) * 0x400 + (low - 0xdc00)) :: ·) := by
  rw [joinHalves?, if_pos first, if_pos second]

theorem quotedReads (quoted : Quoted raw content) : ∃ body ps, (∀ tail, splitQuoted (raw ++ tail) = some (body, tail)) ∧
    pieces? body = some ps ∧ joinHalves? ps = some content := by
  induction quoted with
  | close => exact ⟨[], [], fun tail => rfl, rfl, rfl⟩
  | @char c raw cs content spells _ ih =>
    obtain ⟨body, ps, split, pieces, join⟩ := ih
    refine ⟨raw ++ body, .char c :: ps, fun tail => ?_, ?_, ?_⟩
    · rw [List.append_assoc, splitSpelled spells, split]
      rfl
    · rw [piecesSpelled spells, pieces]
      rfl
    · rw [joinHalves?, join]
      rfl
  | @unit n raw cs content spells alone _ ih =>
    obtain ⟨body, ps, split, pieces, join⟩ := ih
    refine ⟨raw ++ body, .unit n :: ps, fun tail => ?_, ?_, ?_⟩
    · rw [List.append_assoc, splitSpelled spells, split]
      rfl
    · rw [piecesSpelled spells, pieces]
      rfl
    · rw [joinAlone alone, join]
      rfl
  | @halves high low raw raw' cs content spells spells' first second _ ih =>
    obtain ⟨body, ps, split, pieces, join⟩ := ih
    refine ⟨raw ++ (raw' ++ body), .unit high :: .unit low :: ps, fun tail => ?_, ?_, ?_⟩
    · rw [List.append_assoc, List.append_assoc, splitSpelled spells, splitSpelled spells', split]
      rfl
    · rw [piecesSpelled spells, piecesSpelled spells', pieces]
      rfl
    · rw [joinTwo first second, join]
      rfl

theorem splitWhole (split : splitQuoted cs = some (body, tail)) : cs = body ++ '"' :: tail := by
  fun_induction splitQuoted cs generalizing body with
  | case1 => cases split
  | case2 rest =>
    cases split
    rfl
  | case3 c rest ih | case4 c rest _ _ ih =>
    obtain ⟨r, later, same⟩ := Option.map_eq_some_iff.mp split
    cases same
    rw [ih later]
    rfl

theorem splitInner (split : splitQuoted (body ++ '"' :: tail) = some (body, tail)) : ∀ c ∈ body.head?, c ≠ '"' := by
  rintro c first rfl
  cases body with
  | nil => cases first
  | cons d rest =>
    cases first
    cases split

theorem splitRest (spells : p.Spells raw)
    (split : splitQuoted (raw ++ body ++ '"' :: tail) = some (raw ++ body, tail)) :
    splitQuoted (body ++ '"' :: tail) = some (body, tail) := by
  rw [List.append_assoc, splitSpelled spells] at split
  obtain ⟨r, later, same⟩ := Option.map_eq_some_iff.mp split
  obtain ⟨first, rfl⟩ := Prod.mk.inj same
  rw [later, ← List.append_cancel_left first]

theorem readsQuoted (split : splitQuoted (body ++ '"' :: tail) = some (body, tail)) (pieces : pieces? body = some ps)
    (join : joinHalves? ps = some content) : Quoted (body ++ ['"']) content := by
  fun_induction joinHalves? ps generalizing body content with
  | case1 =>
    cases join
    rw [piecesOver pieces (splitInner split)]
    exact .close
  | case2 c rest ih =>
    obtain ⟨raw, body, rfl, spells, pieces⟩ := piecesFirst pieces (splitInner split)
    obtain ⟨content, later, rfl⟩ := Option.map_eq_some_iff.mp join
    rw [List.append_assoc]
    exact .char spells (ih (splitRest spells split) pieces later)
  | case3 high low rest first second ih =>
    obtain ⟨raw, body, rfl, spells, pieces⟩ := piecesFirst pieces (splitInner split)
    have split := splitRest spells split
    obtain ⟨raw', body, rfl, spells', pieces⟩ := piecesFirst pieces (splitInner split)
    obtain ⟨content, later, rfl⟩ := Option.map_eq_some_iff.mp join
    rw [List.append_assoc, List.append_assoc]
    exact .halves spells spells' first second (ih (splitRest spells' split) pieces later)
  | case4 | case5 => cases join
  | case6 high low rest first other ih =>
    obtain ⟨raw, body, rfl, spells, pieces⟩ := piecesFirst pieces (splitInner split)
    obtain ⟨content, later, rfl⟩ := Option.map_eq_some_iff.mp join
    rw [List.append_assoc]
    exact .unit spells (by omega) (ih (splitRest spells split) pieces later)
  | case7 => cases join
  | case8 n rest last alone ih =>
    obtain ⟨raw, body, rfl, spells, pieces⟩ := piecesFirst pieces (splitInner split)
    obtain ⟨content, later, rfl⟩ := Option.map_eq_some_iff.mp join
    rw [List.append_assoc]
    exact .unit spells alone (ih (splitRest spells split) pieces later)

end Strings

section Cutting

variable {P : Char → Bool} {c : Char} {raw cs tail : List Char} {j : Json} {m : Mark} {ts : List Token}

theorem dropWhileStops (all : ∀ d ∈ raw, P d = true) (stops : ∀ d ∈ tail.head?, P d = false) :
    (raw ++ tail).dropWhile P = tail := by
  rw [List.dropWhile_append_of_pos all]
  cases tail with
  | nil => rfl
  | cons d rest => simp [stops d rfl]

theorem dropEnds : ∀ d ∈ (cs.dropWhile P).head?, P d = false := by
  intro d first
  have stopped := List.head?_dropWhile_not P cs
  rw [first] at stopped
  simpa using stopped

structure Solid (c : Char) : Prop where
  blank : isBlank c = false
  quote : c ≠ '"'
  mark : mark? c = none

theorem markPlain (mark : mark? c = some m) : isBlank c = false ∧ c ≠ '"' := by
  constructor
  · cases blank : isBlank c with
    | false => rfl
    | true =>
      simp only [isBlank, Bool.or_eq_true, beq_iff_eq] at blank
      rcases blank with ((rfl | rfl) | rfl) | rfl <;> cases mark
  · rintro rfl
    cases mark

theorem numberSolid (start : c.isDigit = true ∨ c = '-') : Solid c := by
  have apart {d : Char} (other : d.isDigit = false) (bare : d ≠ '-') : c ≠ d := by
    rintro rfl
    rcases start with digit | minus
    · cases other.symm.trans digit
    · exact bare minus
  refine ⟨?_, apart (by decide) (by decide), ?_⟩
  · simp [isBlank, apart (d := ' ') (by decide) (by decide), apart (d := '\n') (by decide) (by decide),
      apart (d := '\t') (by decide) (by decide), apart (d := '\r') (by decide) (by decide)]
  · simp [mark?, apart (d := '[') (by decide) (by decide), apart (d := ']') (by decide) (by decide),
      apart (d := '\x7b') (by decide) (by decide), apart (d := '\x7d') (by decide) (by decide),
      apart (d := ':') (by decide) (by decide), apart (d := ',') (by decide) (by decide)]

theorem wordStart (value : word? raw = some j) :
    ∃ c rest, raw = c :: rest ∧ Solid c ∧ (c.isDigit || c == '-') = false ∧ ∀ d ∈ rest, d.isAlpha = true := by
  unfold word? at value
  split at value
  · rename_i same
    exact ⟨'n', ['u', 'l', 'l'], same, ⟨rfl, by decide, rfl⟩, rfl, List.all_eq_true.mp rfl⟩
  split at value
  · rename_i same
    exact ⟨'t', ['r', 'u', 'e'], same, ⟨rfl, by decide, rfl⟩, rfl, List.all_eq_true.mp rfl⟩
  split at value
  · rename_i same
    exact ⟨'f', ['a', 'l', 's', 'e'], same, ⟨rfl, by decide, rfl⟩, rfl, List.all_eq_true.mp rfl⟩
  · cases value

theorem cutsRead (cuts : Cuts cs ts) : tokens? cs = some ts := by
  induction cuts with
  | done =>
    unfold tokens?
    rfl
  | blank blank _ ih =>
    unfold tokens?
    rw [if_pos blank]
    exact ih
  | mark mark _ ih =>
    obtain ⟨blank, quote⟩ := markPlain mark
    unfold tokens?
    simp only [blank, mark, ih, if_neg quote, Bool.false_eq_true, if_false]
    rfl
  | @string raw content cs ts body _ ih =>
    obtain ⟨body, ps, split, pieces, join⟩ := quotedReads body
    have found := split cs
    unfold tokens?
    simp only [List.cons_append, show isBlank '"' = false from rfl, Bool.false_eq_true, if_false, if_true]
    split
    · rename_i missing
      cases found.symm.trans missing
    · rename_i body' after found'
      cases found.symm.trans found'
      exact Option.bind_eq_some_iff.mpr ⟨ps, pieces, Option.bind_eq_some_iff.mpr
        ⟨content, join, Option.bind_eq_some_iff.mpr ⟨ts, ih, rfl⟩⟩⟩
  | @number c raw cs j ts start parts value ends _ ih =>
    obtain ⟨blank, quote, mark⟩ := numberSolid start
    have start : (c.isDigit || c == '-') = true := by simpa using start
    rw [List.cons_append]
    unfold tokens?
    simp only [blank, mark, if_neg quote, start, Token.takeWhileStops parts ends, dropWhileStops parts ends, value, ih,
      Bool.false_eq_true, if_false, if_true]
    rfl
  | @word raw cs j ts value ends _ ih =>
    obtain ⟨c, rest, rfl, ⟨blank, quote, mark⟩, start, parts⟩ := wordStart value
    rw [List.cons_append]
    unfold tokens?
    simp only [blank, mark, if_neg quote, start, Token.takeWhileStops parts ends, dropWhileStops parts ends, value, ih,
      Bool.false_eq_true, if_false]
    rfl

theorem readCuts (read : tokens? cs = some ts) : Cuts cs ts := by
  fun_induction tokens? cs generalizing ts with
  | case1 =>
    cases read
    exact .done
  | case2 c rest blank ih => exact .blank blank (ih read)
  | case3 => cases read
  | case4 rest body after split _ clear ih =>
    obtain ⟨ps, pieces, read⟩ := Option.bind_eq_some_iff.mp read
    obtain ⟨content, join, read⟩ := Option.bind_eq_some_iff.mp read
    obtain ⟨later, cut, read⟩ := Option.bind_eq_some_iff.mp read
    cases read
    obtain rfl := splitWhole split
    have cuts := Cuts.string (readsQuoted split pieces join) (ih cut)
    rwa [List.cons_append, List.append_assoc] at cuts
  | case5 c rest blank quote m mark ih =>
    obtain ⟨later, cut, rfl⟩ := Option.map_eq_some_iff.mp read
    exact .mark mark (ih cut)
  | case6 c rest _ _ _ _ _ start ih =>
    obtain ⟨j, value, read⟩ := Option.bind_eq_some_iff.mp read
    obtain ⟨later, cut, read⟩ := Option.bind_eq_some_iff.mp read
    cases read
    have cuts := Cuts.number (by simpa using start) (fun d inside => List.mem_takeWhile_imp inside) value dropEnds (ih cut)
    rwa [List.cons_append, List.takeWhile_append_dropWhile] at cuts
  | case7 c rest _ _ _ _ _ _ ih =>
    obtain ⟨j, value, read⟩ := Option.bind_eq_some_iff.mp read
    obtain ⟨later, cut, read⟩ := Option.bind_eq_some_iff.mp read
    cases read
    have cuts := Cuts.word value dropEnds (ih cut)
    rwa [List.cons_append, List.takeWhile_append_dropWhile] at cuts

end Cutting

inductive Phrase where
  | value (j : Json)
  | items (js : List Json)
  | fields (fs : List (String × Json))

/-- The tokens that a phrase is written with, and how many brackets are open in them at once. -/
inductive Spells : Phrase → Nat → List Token → Prop where
  | scalar {j : Json} : Spells (.value j) 0 [.scalar j]
  | string {s : String} : Spells (.value (.string s)) 0 [.string s]
  | emptyArray : Spells (.value (.array [])) 1 [.mark .openArray, .mark .closeArray]
  | array {js : List Json} {d : Nat} {ts : List Token} (items : Spells (.items js) d ts) :
      Spells (.value (.array js)) (d + 1) (.mark .openArray :: ts ++ [.mark .closeArray])
  | emptyObject : Spells (.value (.object [])) 1 [.mark .openObject, .mark .closeObject]
  | object {fs : List (String × Json)} {d : Nat} {ts : List Token} (fields : Spells (.fields fs) d ts) :
      Spells (.value (.object (Fields.ofList fs))) (d + 1) (.mark .openObject :: ts ++ [.mark .closeObject])
  | item {j : Json} {d : Nat} {ts : List Token} (value : Spells (.value j) d ts) : Spells (.items [j]) d ts
  | moreItems {js : List Json} {j : Json} {d d' : Nat} {ts ts' : List Token} (items : Spells (.items js) d ts)
      (value : Spells (.value j) d' ts') : Spells (.items (js ++ [j])) (max d d') (ts ++ .mark .comma :: ts')
  | field {name : String} {j : Json} {d : Nat} {ts : List Token} (value : Spells (.value j) d ts) :
      Spells (.fields [(name, j)]) d (.string name :: .mark .colon :: ts)
  | moreFields {fs : List (String × Json)} {name : String} {j : Json} {d d' : Nat} {ts ts' : List Token}
      (fields : Spells (.fields fs) d ts) (value : Spells (.value j) d' ts') :
      Spells (.fields (fs ++ [(name, j)])) (max d d') (ts ++ .mark .comma :: .string name :: .mark .colon :: ts')

section Reading

variable {phrase : Phrase} {d : Nat} {ts : List Token}

/-- How the tokens of a phrase are read in front of others: it is taken if its brackets find room above the open ones. -/
def Phrase.Reads (d : Nat) (ts : List Token) : Phrase → Prop
  | .value j => ∀ stack next result rest, stack.length ≤ 127 → next = .value ∨ next = .firstItem →
    (ts ++ rest).foldlM Progress.step ⟨stack, next, result⟩ =
      if stack.length + d ≤ 127 then rest.foldlM Progress.step (.take j stack) else none
  | .items js => ∀ stack items next result rest, stack.length < 127 → next = .value ∨ next = .firstItem →
    (ts ++ rest).foldlM Progress.step ⟨.array items :: stack, next, result⟩ =
      if stack.length + 1 + d ≤ 127 then
        rest.foldlM Progress.step ⟨.array (js.reverse ++ items) :: stack, .separator, .null⟩
      else none
  | .fields fs => ∀ stack fields key next result rest, stack.length < 127 → next = .key ∨ next = .firstKey → ∃ key',
    (ts ++ rest).foldlM Progress.step ⟨.object fields key :: stack, next, result⟩ =
      if stack.length + 1 + d ≤ 127 then
        rest.foldlM Progress.step ⟨.object (fs.reverse ++ fields) key' :: stack, .separator, .null⟩
      else none

theorem bothFit {α : Type} {x : Option α} {n d d' : Nat} :
    (if n + max d d' ≤ 127 then x else none) = if n + d ≤ 127 then (if n + d' ≤ 127 then x else none) else none := by
  split
  · rw [if_pos (by omega), if_pos (by omega)]
  · split
    · rw [if_neg (by omega)]
    · rfl

theorem opening {stack : List Frame} {next : Next} {result : Json} (starts : next = .value ∨ next = .firstItem) :
    Progress.step ⟨stack, next, result⟩ (.mark .openArray) =
        Progress.enter ⟨stack, next, result⟩ (.array []) .firstItem ∧
      Progress.step ⟨stack, next, result⟩ (.mark .openObject) =
        Progress.enter ⟨stack, next, result⟩ (.object [] "") .firstKey := by
  rcases starts with rfl | rfl <;> exact ⟨rfl, rfl⟩

theorem entered {stack : List Frame} {next next' : Next} {result : Json} {frame : Frame} {t : Token} {rest : List Token}
    (step : Progress.step ⟨stack, next, result⟩ t = Progress.enter ⟨stack, next, result⟩ frame next') :
    (t :: rest).foldlM Progress.step ⟨stack, next, result⟩ =
      if stack.length < 127 then rest.foldlM Progress.step ⟨frame :: stack, next', .null⟩ else none := by
  rw [List.foldlM_cons, step, Progress.enter]
  split <;> rfl

theorem spellsRead (spells : Spells phrase d ts) : phrase.Reads d ts := by
  induction spells with
  | @scalar j | string =>
    intro stack next result rest room starts
    rw [Nat.add_zero, if_pos room]
    rcases starts with rfl | rfl <;> rfl
  | emptyArray =>
    intro stack next result rest _ starts
    exact entered (opening starts).1
  | @array js d ts items ih =>
    intro stack next result rest _ starts
    rw [List.append_assoc, List.cons_append, entered (opening starts).1]
    split
    · rename_i room
      rw [ih stack [] .firstItem .null _ room (.inr rfl), Nat.add_assoc, Nat.add_comm 1 d]
      split
      · rw [List.append_nil]
        refine Eq.trans ?_ (congrArg (fun js => rest.foldlM Progress.step (.take (.array js) stack)) js.reverse_reverse)
        rfl
      · rfl
    · rw [if_neg (by omega)]
  | emptyObject =>
    intro stack next result rest _ starts
    exact entered (opening starts).2
  | @object fs d ts fields ih =>
    intro stack next result rest _ starts
    rw [List.append_assoc, List.cons_append, entered (opening starts).2]
    split
    · rename_i room
      obtain ⟨key, read⟩ := ih stack [] "" .firstKey .null ([.mark .closeObject] ++ rest) room (.inr rfl)
      rw [read, Nat.add_assoc, Nat.add_comm 1 d]
      split
      · rw [List.append_nil]
        refine Eq.trans ?_ (congrArg (fun fs => rest.foldlM Progress.step (.take (.object (Fields.ofList fs)) stack))
          fs.reverse_reverse)
        rfl
      · rfl
    · rw [if_neg (by omega)]
  | item value ih => exact fun stack items next result rest room starts => ih _ next result rest room starts
  | @moreItems js j d d' ts ts' items value ih ih' =>
    intro stack items next result rest room starts
    rw [List.append_assoc, List.cons_append, ih stack items next result _ room starts, bothFit, List.reverse_append]
    split
    · exact ih' (.array (js.reverse ++ items) :: stack) .value .null rest room (.inl rfl)
    · rfl
  | @field name j d ts value ih =>
    intro stack fields key next result rest room starts
    refine ⟨name, ?_⟩
    rcases starts with rfl | rfl <;> exact ih (.object fields name :: stack) .value .null rest room (.inl rfl)
  | @moreFields fs name j d d' ts ts' fields value ih ih' =>
    intro stack fields key next result rest room starts
    refine ⟨name, ?_⟩
    obtain ⟨key', read⟩ := ih stack fields key next result
      (.mark .comma :: .string name :: .mark .colon :: ts' ++ rest) room starts
    rw [List.append_assoc, read, bothFit, List.reverse_append]
    split
    · exact ih' (.object (fs.reverse ++ fields) name :: stack) .value .null rest room (.inl rfl)
    · rfl

inductive Within : Frame → Nat → List Token → Prop where
  | first : Within (.array []) 0 [.mark .openArray]
  | item {js : List Json} {d : Nat} {ts : List Token} (items : Spells (.items js) d ts) :
      Within (.array js.reverse) d (.mark .openArray :: ts ++ [.mark .comma])
  | key {name : String} : Within (.object [] name) 0 [.mark .openObject, .string name, .mark .colon]
  | field {fs : List (String × Json)} {name : String} {d : Nat} {ts : List Token} (fields : Spells (.fields fs) d ts) :
      Within (.object fs.reverse name) d (.mark .openObject :: ts ++ [.mark .comma, .string name, .mark .colon])

/-- Open brackets, the last of which comes first, and all that stands in them in front of a document that is to come. -/
inductive Awaits : List Frame → List Token → Prop where
  | start : Awaits [] []
  | inner {stack : List Frame} {frame : Frame} {d : Nat} {ts ts' : List Token} (outer : Awaits stack ts)
      (within : Within frame d ts') (room : stack.length + 1 + d ≤ 127) : Awaits (frame :: stack) (ts ++ ts')

inductive Progress.Read : Progress → List Token → Prop where
  | value {stack : List Frame} {ts : List Token} (outer : Awaits stack ts) : Read ⟨stack, .value, .null⟩ ts
  | firstItem {stack : List Frame} {ts : List Token} (outer : Awaits stack ts) (room : stack.length < 127) :
      Read ⟨.array [] :: stack, .firstItem, .null⟩ (ts ++ [.mark .openArray])
  | item {stack : List Frame} {js : List Json} {d : Nat} {ts ts' : List Token} (outer : Awaits stack ts)
      (items : Spells (.items js) d ts') (room : stack.length + 1 + d ≤ 127) :
      Read ⟨.array js.reverse :: stack, .separator, .null⟩ (ts ++ .mark .openArray :: ts')
  | firstKey {stack : List Frame} {name : String} {ts : List Token} (outer : Awaits stack ts) (room : stack.length < 127) :
      Read ⟨.object [] name :: stack, .firstKey, .null⟩ (ts ++ [.mark .openObject])
  | key {stack : List Frame} {fs : List (String × Json)} {name : String} {d : Nat} {ts ts' : List Token}
      (outer : Awaits stack ts) (fields : Spells (.fields fs) d ts') (room : stack.length + 1 + d ≤ 127) :
      Read ⟨.object fs.reverse name :: stack, .key, .null⟩ (ts ++ (.mark .openObject :: ts' ++ [.mark .comma]))
  | colon {stack : List Frame} {frame : Frame} {d : Nat} {ts ts' : List Token} (outer : Awaits stack ts)
      (within : Within frame d (ts' ++ [.mark .colon])) (room : stack.length + 1 + d ≤ 127) :
      Read ⟨frame :: stack, .colon, .null⟩ (ts ++ ts')
  | field {stack : List Frame} {fs : List (String × Json)} {name : String} {d : Nat} {ts ts' : List Token}
      (outer : Awaits stack ts) (fields : Spells (.fields fs) d ts') (room : stack.length + 1 + d ≤ 127) :
      Read ⟨.object fs.reverse name :: stack, .separator, .null⟩ (ts ++ .mark .openObject :: ts')
  | done {j : Json} {d : Nat} {ts : List Token} (value : Spells (.value j) d ts) (room : d ≤ 127) : Read ⟨[], .done, j⟩ ts

theorem awaitsRoom {stack : List Frame} (outer : Awaits stack ts) : stack.length ≤ 127 := by
  cases outer with
  | start => exact Nat.zero_le 127
  | inner _ _ room => exact Nat.le_of_add_right_le room

theorem takeRead {stack : List Frame} {j : Json} {ts' : List Token} (outer : Awaits stack ts)
    (value : Spells (.value j) d ts') (room : stack.length + d ≤ 127) : (Progress.take j stack).Read (ts ++ ts') := by
  cases outer with
  | start => exact .done value (by simpa using room)
  | @inner stack frame d' ts₀ within outer inside room' =>
    rw [List.length_cons] at room
    cases inside with
    | first =>
      rw [List.append_assoc]
      exact .item outer (.item value) room
    | @item js _ ts₁ items =>
      have spelled := Progress.Read.item outer (.moreItems items value) (by omega)
      rw [List.reverse_append] at spelled
      have same : ts₀ ++ (.mark .openArray :: ts₁ ++ [.mark .comma]) ++ ts' =
          ts₀ ++ .mark .openArray :: (ts₁ ++ .mark .comma :: ts') := by simp
      rw [same]
      exact spelled
    | @key name =>
      rw [List.append_assoc]
      exact .field outer (.field value) room
    | @field fs name _ ts₁ fields =>
      have spelled : Progress.Read ⟨.object (fs ++ [(name, j)]).reverse name :: stack, .separator, .null⟩ _ :=
        .field outer (.moreFields fields value) (by omega)
      rw [List.reverse_append] at spelled
      have same : ts₀ ++ (.mark .openObject :: ts₁ ++ [.mark .comma, .string name, .mark .colon]) ++ ts' =
          ts₀ ++ .mark .openObject :: (ts₁ ++ .mark .comma :: .string name :: .mark .colon :: ts') := by simp
      rw [same]
      exact spelled

theorem enterRead {stack : List Frame} {frame : Frame} {next next' : Next} {p : Progress} {t : Token}
    (entered : Progress.enter ⟨stack, next, .null⟩ frame next' = some p)
    (read : stack.length < 127 → Progress.Read ⟨frame :: stack, next', .null⟩ (ts ++ [t])) : p.Read (ts ++ [t]) := by
  unfold Progress.enter at entered
  split at entered
  · rename_i room
    cases entered
    exact read room
  · cases entered

theorem valueRead {stack : List Frame} {next : Next} {p : Progress} {t : Token} (outer : Awaits stack ts)
    (starts : next = .value ∨ next = .firstItem) (other : t ≠ .mark .closeArray)
    (step : Progress.step ⟨stack, next, .null⟩ t = some p) : p.Read (ts ++ [t]) := by
  have room := awaitsRoom outer
  cases t with
  | scalar j =>
    obtain rfl : Progress.take j stack = p := by rcases starts with rfl | rfl <;> exact Option.some.inj step
    exact takeRead outer .scalar room
  | string s =>
    obtain rfl : Progress.take (.string s) stack = p := by rcases starts with rfl | rfl <;> exact Option.some.inj step
    exact takeRead outer .string room
  | mark m =>
    cases m with
    | openArray =>
      exact enterRead ((opening starts).1.symm.trans step) fun room => .firstItem outer room
    | openObject =>
      exact enterRead ((opening starts).2.symm.trans step) fun room => .firstKey outer room
    | closeArray => exact absurd rfl other
    | closeObject | colon | comma => rcases starts with rfl | rfl <;> cases step

theorem stepRead {p p' : Progress} {t : Token} (read : p.Read ts) (step : p.step t = some p') : p'.Read (ts ++ [t]) := by
  cases read with
  | value outer => exact valueRead outer (.inl rfl) (by rintro rfl; cases step) step
  | @firstItem stack ts outer room =>
    by_cases ended : t = .mark .closeArray
    · subst ended
      cases step
      rw [List.append_assoc]
      exact takeRead outer .emptyArray room
    · have inner := Awaits.inner outer .first room
      exact valueRead inner (.inr rfl) ended step
  | @item stack js d ts ts' outer items room =>
    cases t with
    | scalar | string => cases step
    | mark m =>
      cases m with
      | comma =>
        cases step
        rw [List.append_assoc]
        exact .value (.inner outer (.item items) room)
      | closeArray =>
        cases step
        rw [List.append_assoc, List.reverse_reverse]
        exact takeRead outer (.array items) (by omega)
      | openArray | openObject | closeObject | colon => cases step
  | @firstKey stack name ts outer room =>
    cases t with
    | scalar => cases step
    | string key =>
      cases step
      rw [List.append_assoc]
      exact .colon outer .key room
    | mark m =>
      cases m with
      | closeObject =>
        cases step
        rw [List.append_assoc]
        exact takeRead outer .emptyObject room
      | openArray | openObject | closeArray | colon | comma => cases step
  | @key stack fs name d ts ts' outer fields room =>
    cases t with
    | scalar => cases step
    | string key =>
      cases step
      rw [List.append_assoc]
      have same : .mark .openObject :: ts' ++ [.mark .comma] ++ [.string key] ++ [.mark .colon] =
          .mark .openObject :: ts' ++ [.mark .comma, .string key, .mark .colon] := by simp
      exact .colon outer (same ▸ .field fields) room
    | mark m => cases m <;> cases step
  | @colon stack frame d ts ts' outer within room =>
    cases t with
    | scalar | string => cases step
    | mark m =>
      cases m with
      | colon =>
        cases step
        rw [List.append_assoc]
        exact .value (.inner outer within room)
      | openArray | openObject | closeArray | closeObject | comma => cases step
  | @field stack fs name d ts ts' outer fields room =>
    cases t with
    | scalar | string => cases step
    | mark m =>
      cases m with
      | comma =>
        cases step
        rw [List.append_assoc]
        exact .key outer fields room
      | closeObject =>
        cases step
        rw [List.append_assoc, List.reverse_reverse]
        exact takeRead outer (.object fields) (by omega)
      | openArray | openObject | closeArray | colon => cases step
  | done value room =>
    cases t with
    | scalar | string => cases step
    | mark m => cases m <;> cases step

theorem stepsRead {p p' : Progress} {rest : List Token} (read : p.Read ts)
    (steps : rest.foldlM Progress.step p = some p') : p'.Read (ts ++ rest) := by
  induction rest generalizing p ts with
  | nil =>
    cases steps
    rwa [List.append_nil]
  | cons t rest ih =>
    rw [List.foldlM_cons] at steps
    obtain ⟨next, step, steps⟩ := Option.bind_eq_some_iff.mp steps
    rw [List.append_cons]
    exact ih (stepRead read step) steps

end Reading

def Writes (text : String) (d : Nat) (j : Json) : Prop := ∃ ts, Cuts text.toList ts ∧ Spells (.value j) d ts

theorem writesRead {text : String} {d : Nat} {j : Json} (writes : Writes text d j) :
    read? text = if d < 128 then some j else none := by
  obtain ⟨ts, cuts, spells⟩ := writes
  have steps := spellsRead spells [] .value .null [] (Nat.zero_le _) (.inl rfl)
  rw [List.append_nil, List.length_nil, Nat.zero_add] at steps
  have read : read? text = (tokens? text.toList).bind fun ts => (ts.foldlM Progress.step ⟨[], .value, .null⟩).bind
      fun p => if p.next = .done then some p.result else none := rfl
  rw [read, cutsRead cuts, Option.bind_some, steps]
  by_cases room : d < 128
  · rw [if_pos room, if_pos (Nat.le_of_lt_succ room)]
    rfl
  · rw [if_neg room, if_neg fun fits => room (Nat.lt_succ_of_le fits)]
    rfl

theorem readWrites {text : String} {j : Json} (read : read? text = some j) : ∃ d < 128, Writes text d j := by
  obtain ⟨ts, cut, read⟩ := Option.bind_eq_some_iff.mp read
  obtain ⟨p, steps, read⟩ := Option.bind_eq_some_iff.mp read
  have last := stepsRead (.value .start) steps
  split at read
  · rename_i done
    cases read
    cases last with
    | @done j d _ value room => exact ⟨d, Nat.lt_succ_of_le room, ts, readCuts cut, value⟩
    | _ => cases done
  · cases read

section Nested

def nested : Nat → Json
  | 0 => .array []
  | n + 1 => .array [nested n]

def brackets (n : Nat) : String := String.ofList (List.replicate n '[' ++ List.replicate n ']')

theorem marksCut {c : Char} {m : Mark} {cs : List Char} {ts : List Token} (mark : mark? c = some m) (later : Cuts cs ts)
    (n : Nat) : Cuts (List.replicate n c ++ cs) (List.replicate n (.mark m) ++ ts) := by
  induction n with
  | zero => exact later
  | succ n ih => exact .mark mark ih

theorem nestedSpells (n : Nat) : Spells (.value (nested n)) (n + 1)
    (List.replicate (n + 1) (.mark .openArray) ++ List.replicate (n + 1) (.mark .closeArray)) := by
  induction n with
  | zero => exact .emptyArray
  | succ n ih =>
    have spells := Spells.array (.item ih)
    have closes : List.replicate (n + 1 + 1) (Token.mark .closeArray) = _ := List.replicate_succ'
    rw [closes, ← List.append_assoc]
    exact spells

theorem nestedWrites (n : Nat) : Writes (brackets (n + 2)) (n + 2) (.array [nested n]) := by
  refine ⟨_, ?_, nestedSpells (n + 1)⟩
  have closes := marksCut (c := ']') rfl .done (n + 2)
  rw [List.append_nil, List.append_nil] at closes
  rw [brackets, String.toList_ofList]
  exact marksCut rfl closes (n + 2)

end Nested

end SymbolicQuery.Json
