import SymbolicQuery.Proofs.Making
import SymbolicQuery.Proofs.Reporting

/-! The text of an expression as tokens. Where no number has places, no string needs a code for a character, nothing is
converted or constructed by a named type, and nothing is read off a sign, what an expression is shown as is cut into the
tokens that the expression is written with. -/
namespace SymbolicQuery
open Results

namespace UnaryOp

def token : UnaryOp → Token
  | not => .bang
  | negate => .minus

end UnaryOp

namespace BinaryOp

def token : BinaryOp → Token
  | equal => .equal
  | notEqual => .notEqual
  | less => .less
  | greater => .greater
  | lessEqual => .lessEqual
  | greaterEqual => .greaterEqual
  | add => .plus
  | subtract => .minus
  | multiply => .star
  | divide => .slash
  | modulo => .percent
  | and => .andWord
  | or => .orWord

end BinaryOp

namespace Value

def token : Value → Token
  | .integer n => .integer n
  | .string s => .string s
  | .boolean b => .boolean b
  | _ => .null

def plainChar (c : Char) : Bool := (0x20 ≤ c.toNat && c.toNat ≤ 0x7e) || c == '\n' || c == '\t' || c == '\r'

def plain : Value → Bool
  | .float _ => false
  | .string s => s.toList.all plainChar
  | _ => true

end Value

namespace Token
variable {c : Char} {raw tail cs : List Char} {t : Token} {tokens more : List Token} {name : String}

def Worded (name : String) : Prop := Spells name.toList (.identifier name)

theorem wordSpelled {w : String} (shown : (match w.toList with
      | [] => false
      | c :: rest => !Text.isBlank c && isWordStart c && rest.all isWordPart) = true) : Spells w.toList (ofWord w) := by
  split at shown
  · cases shown
  · rename_i c rest same
    simp only [Bool.and_eq_true, Bool.not_eq_true', List.all_eq_true] at shown
    have spelled := Spells.word shown.1.1 shown.1.2 shown.2
    rw [← same, String.ofList_toList] at spelled
    exact same ▸ spelled

theorem spelledWorded (spells : Spells raw (.identifier name)) : Worded name := by
  generalize same : identifier name = t at spells
  cases spells with
  | symbol shown => subst same; cases shown
  | string | integer | float => cases same
  | @word c rest clear start parts =>
    have known : name = String.ofList (c :: rest) := by
      unfold ofWord at same
      split at same <;> cases same
      rfl
    unfold Worded
    rw [same, known, String.toList_ofList]
    exact .word clear start parts

theorem Worded.starts (worded : Worded name) : ∃ c rest, name.toList = c :: rest ∧ isWordStart c = true := by
  unfold Worded at worded
  generalize name.toList = raw, same : identifier name = t at worded ⊢
  cases worded with
  | symbol shown => subst same; cases shown
  | string | integer | float => cases same
  | word clear start parts => exact ⟨_, _, rfl, start⟩

structure Fits (tail : List Char) : Prop where
  first : ∀ c ∈ tail.head?, isWordPart c = false ∧ c.isDigit = false ∧ c ≠ '=' ∧ c ≠ '>'
  point : ∀ d rest, tail = '.' :: d :: rest → d.isDigit = false

theorem Fits.apart (fits : Fits tail) : t.Apart tail := by
  cases t with
  | integer n => exact ⟨fun c first => (fits.first c first).2.1, fits.point⟩
  | float x => exact fun c first => (fits.first c first).2.1
  | assign => exact fun c first => (fits.first c first).2.2
  | less | greater | bang => exact fun c first => (fits.first c first).2.2.1
  | boolean | null | identifier | newWord | asWord | andWord | orWord => exact fun c first => (fits.first c first).1
  | _ => trivial

theorem fitsNil : Fits [] := ⟨by simp, by simp⟩

theorem fitsMark (mark : c ∈ [' ', '(', ')', ',', '\x7d']) : Fits (c :: tail) := by
  simp only [List.mem_cons, List.not_mem_nil, or_false] at mark
  refine ⟨fun d first => ?_, fun d rest same => ?_⟩
  · cases first
    rcases mark with rfl | rfl | rfl | rfl | rfl <;> decide
  · cases same
    simp at mark

theorem Worded.fits (worded : Worded name) : Fits ('.' :: (name.toList ++ tail)) := by
  obtain ⟨c, rest, same, start⟩ := worded.starts
  rw [same]
  refine ⟨fun d first => by cases first; decide, fun d more equal => ?_⟩
  cases equal
  cases digit : c.isDigit with
  | false => rfl
  | true => rw [digitWord digit] at start; cases start

def Lexes (cs : List Char) (tokens : List Token) : Prop := ∀ p, ∃ ts, Cuts p cs ts ∧ ts.pending.map (·.1) = tokens

theorem lexesNil : Lexes [] [] := fun _ => ⟨_, .done, rfl⟩

theorem Lexes.blank (lexes : Lexes tail more) : Lexes (' ' :: tail) more := fun p =>
  let ⟨ts, cuts, same⟩ := lexes (p + 1)
  ⟨ts, .blank (by decide) cuts, same⟩

theorem Lexes.token (lexes : Lexes tail more) (spells : Spells raw t) (apart : t.Apart tail) :
    Lexes (raw ++ tail) (t :: more) := fun p =>
  let ⟨_, cuts, same⟩ := lexes (p + raw.length)
  ⟨_, .token spells apart cuts, congrArg (t :: ·) same⟩

theorem Lexes.mark (lexes : Lexes tail more) (shown : t.symbol? = some [c]) (apart : t.Apart tail) :
    Lexes (c :: tail) (t :: more) := lexes.token (.symbol shown) apart

def Shows (cs : List Char) (tokens : List Token) : Prop :=
  ∀ tail more, Fits tail → Lexes tail more → Lexes (cs ++ tail) (tokens ++ more)

theorem spellsShows (spells : Spells raw t) : Shows raw [t] := fun _ _ fits lexes => lexes.token spells fits.apart

theorem commasShow {α : Type} {text : α → String} {tokens : α → List Token} {as : List α}
    (each : ∀ a ∈ as, Shows (text a).toList (tokens a)) :
    Shows (", ".intercalate (as.map text)).toList ([.comma].intercalate (as.map tokens)) := by
  induction as with
  | nil => exact fun _ _ _ lexes => by simpa using lexes
  | cons a as ih =>
    obtain ⟨here, later⟩ := List.forall_mem_cons.mp each
    cases as with
    | nil => simpa using here
    | cons b as =>
      intro tail more fits lexes
      have after := ih later tail more fits lexes
      have comma : ", ".toList = [',', ' '] := rfl
      simp only [List.map_cons, String.intercalate_cons_cons, List.intercalate_cons_cons, String.toList_append, comma,
        List.append_assoc, List.cons_append, List.nil_append] at after ⊢
      exact here _ _ (fitsMark (by simp)) (after.blank.mark rfl trivial)

section Characters
variable {content : List Char}

theorem plainEscape (plain : Value.plainChar c = true) (quoted : Quoted '"' raw content) :
    Quoted '"' (Text.escapeChar c ++ raw) (c :: content) := by
  unfold Text.escapeChar
  by_cases double : c = '"'
  · subst double
    exact .escape rfl quoted
  by_cases slash : c = '\\'
  · subst slash
    exact .escape rfl quoted
  by_cases line : c = '\n'
  · subst line
    exact .escape rfl quoted
  by_cases back : c = '\r'
  · subst back
    exact .escape rfl quoted
  by_cases tab : c = '\t'
  · subst tab
    exact .escape rfl quoted
  simp only [Value.plainChar, line, back, tab, beq_eq_false_iff_ne.mpr, ne_eq, not_false_eq_true, Bool.or_false,
    Bool.and_eq_true, decide_eq_true_eq] at plain
  obtain ⟨low, high⟩ := plain
  have zero : c ≠ '\x00' := by
    rintro rfl
    revert low
    decide
  have ascii : c.toNat < 128 := by omega
  have shown : Text.isPrintable c = true := by
    have last : c.toNat ≠ 127 := by omega
    simp [Text.isPrintable, ascii, low, last]
  have alone : Text.isExtending c = false := by simp [Text.isExtending, ascii]
  simp only [if_neg double, if_neg slash, if_neg line, if_neg back, if_neg tab, if_neg zero, alone, shown, Bool.not_true,
    Bool.or_self, Bool.false_eq_true, if_false, List.singleton_append]
  exact .plain double slash quoted

theorem plainQuoted (plain : ∀ c ∈ content, Value.plainChar c = true) :
    Quoted '"' (content.flatMap Text.escapeChar ++ ['"']) content := by
  induction content with
  | nil => exact .close
  | cons c content ih =>
    obtain ⟨here, later⟩ := List.forall_mem_cons.mp plain
    rw [List.flatMap_cons, List.append_assoc]
    exact plainEscape here (ih later)

theorem stringSpelled {s : String} (plain : ∀ c ∈ s.toList, Value.plainChar c = true) :
    Spells (Text.quote s).toList (.string s) := by
  have spelled := Spells.string (.inl rfl) (plainQuoted plain)
  rw [String.ofList_toList] at spelled
  rw [Text.quote, String.toList_ofList]
  exact spelled

end Characters

theorem integerSpelled {n : Int64} (whole : 0 ≤ n.toInt) : Spells (toString n.toInt).toList (.integer n) := by
  obtain ⟨m, same⟩ := Int.eq_ofNat_of_zero_le whole
  have shown : toString n.toInt = String.ofList (Nat.toDigits 10 m) := by
    rw [same]
    exact Nat.toString_eq_ofList_toDigits
  rw [shown, String.toList_ofList]
  refine .integer Nat.toDigits_ne_nil (fun d => Nat.isDigit_of_mem_toDigits (by decide) (by decide)) ?_
  have value : Binary64.digitsValue (Nat.toDigits 10 m) = m := Nat.ofDigitChars_ten_toDigits
  rw [value, int64Eq, same]

theorem booleanSpelled (b : Bool) : Spells (Value.boolean b).text.toList (.boolean b) := by
  cases b <;> exact wordSpelled rfl

theorem nullSpelled : Spells Value.null.text.toList .null := wordSpelled rfl

theorem newSpelled : Spells "new".toList .newWord := wordSpelled rfl

theorem spelledOther (spells : Spells raw t) (other : t.symbol? = none) : ∃ c rest, raw = c :: rest ∧ c ≠ '=' := by
  have digit {c : Char} {rest : List Char} (all : ∀ d ∈ c :: rest, d.isDigit = true) : c ≠ '=' := by
    rintro rfl
    exact absurd (all _ List.mem_cons_self) (by decide)
  cases spells with
  | symbol shown => rw [other] at shown; cases shown
  | string either => exact ⟨_, _, rfl, by rcases either with rfl | rfl <;> decide⟩
  | word clear start parts => exact ⟨_, _, rfl, by rintro rfl; revert start; decide⟩
  | integer any all value =>
    obtain ⟨c, rest, rfl⟩ := List.exists_cons_of_ne_nil any
    exact ⟨c, rest, rfl, digit all⟩
  | float any all more each value =>
    rename_i whole places x
    obtain ⟨c, rest, rfl⟩ := List.exists_cons_of_ne_nil any
    exact ⟨c, _, rfl, digit all⟩

theorem integerWhole {n : Int64} (spells : Spells raw (.integer n)) : 0 ≤ n.toInt := by
  generalize same : integer n = t at spells
  cases spells with
  | symbol shown => subst same; cases shown
  | string | float => cases same
  | word =>
    unfold ofWord at same
    split at same <;> cases same
  | integer any all value =>
    cases same
    rw [int64Eq] at value
    omega

theorem cutsSpelled {p : Nat} {ts : Tokens} (cuts : Cuts p cs ts) : ∀ placed ∈ ts.pending, ∃ raw, Spells raw placed.1 := by
  induction cuts with
  | done => simp
  | blank _ _ ih => exact ih
  | token spells _ _ ih => exact List.forall_mem_cons.mpr ⟨⟨_, spells⟩, ih⟩

theorem methodWorded (method : TextMethod) : Worded method.name := by
  cases method <;> exact wordSpelled rfl

end Token

theorem UnaryOp.spelled (op : UnaryOp) : Token.Spells op.symbol.toList op.token := by
  cases op <;> exact .symbol rfl

theorem BinaryOp.spelled (op : BinaryOp) : Token.Spells op.symbol.toList op.token := by
  cases op with
  | and | or => exact Token.wordSpelled rfl
  | _ => exact .symbol rfl

namespace Expr
open Token (Worded Fits fitsMark Lexes Shows)

def isUnary : Expr → Bool
  | .unary .. => true
  | _ => false

mutual

/-- Expressions that are shown as they may be written: without numbers that have places, without characters that are shown
by their number, without conversions, bindings and empty constructions, and with nothing read off a sign. -/
def plain : Expr → Bool
  | .constant _ _ value => value.plain
  | .parameter .. | .reference .. => true
  | .access _ object _ | .getter _ object _ => object.plain && !object.isUnary
  | .unary _ _ _ operand => operand.plain
  | .binary _ _ _ left right => left.plain && right.plain
  | .textCall _ _ receiver args => receiver.plain && !receiver.isUnary && plainAll args
  | .stageCall _ _ _ input args => input.plain && plainAll args
  | .convert .. => false
  | .construct _ _ members args => !members.isEmpty && plainAll args
  | .populate .. => false
  | .lambda _ _ body => body.plain

def plainAll : List Expr → Bool
  | [] => true
  | e :: rest => e.plain && plainAll rest

end

mutual

def tokens : Expr → List Token
  | .constant _ _ value => [value.token]
  | .parameter _ param => [.identifier param.name]
  | .access _ object member => object.tokens ++ [.dot, .identifier member.name]
  | .getter _ object member => object.tokens ++ [.dot, .identifier member.name, .openParen, .closeParen]
  | .unary _ _ op operand => op.token :: operand.tokens
  | .binary _ _ op left right => .openParen :: (left.tokens ++ op.token :: (right.tokens ++ [.closeParen]))
  | .textCall _ method receiver args =>
    receiver.tokens ++
      .dot :: .identifier method.name :: .openParen :: ([.comma].intercalate (tokensAll args) ++ [.closeParen])
  | .construct _ _ members args =>
    .newWord :: .openBrace :: ([.comma].intercalate (fieldTokens members args) ++ [.closeBrace])
  | _ => []

def tokensAll : List Expr → List (List Token)
  | [] => []
  | e :: rest => e.tokens :: tokensAll rest

def fieldTokens : List Member → List Expr → List (List Token)
  | m :: ms, e :: rest => (.identifier m.name :: .assign :: e.tokens) :: fieldTokens ms rest
  | _, _ => []

end

inductive Legible (p : Param) : Expr → Prop where
  | constant {i : Nat} {ty : Ty} {value : Value} (spelled : Token.Spells value.text.toList value.token)
      (stands : value.token.constant? = some (ty, value)) : Legible p (.constant i ty value)
  | parameter {i : Nat} : Legible p (.parameter i p)
  | access {i : Nat} {o : Expr} {m : Member} (object : Legible p o) (bare : o.isUnary = false) (worded : Worded m.name)
      (declared : o.ty.member? m.name = some m) (held : o.ty.declares m = true) (value : m.isMethod = false) :
      Legible p (.access i o m)
  | getter {i : Nat} {o : Expr} {m : Member} (object : Legible p o) (bare : o.isUnary = false) (worded : Worded m.name)
      (declared : o.ty.member? m.name = some m) (held : o.ty.declares m = true) (method : m.isMethod = true) :
      Legible p (.getter i o m)
  | textCall {i : Nat} {o : Expr} {method : TextMethod} {args : List Expr} (object : Legible p o) (bare : o.isUnary = false)
      (each : ∀ arg ∈ args, Legible p arg) (undeclared : (o.ty.member? method.name).filter MemberOf.isMethod = none)
      (text : (o.ty == .string || o.ty == .any) = true) (arity : (args.length == method.arity) = true)
      (assignable : ∀ arg ∈ args, Ty.string.assignable arg.ty = true) : Legible p (.textCall i method o args)
  | unary {i : Nat} {op : UnaryOp} {t : Ty} {o : Expr} (operand : Legible p o) (result : op.result? o.ty = some t) :
      Legible p (.unary i t op o)
  | binary {i : Nat} {op : BinaryOp} {t : Ty} {l r : Expr} (left : Legible p l) (right : Legible p r)
      (result : op.result? l.ty r.ty = some t) : Legible p (.binary i t op l r)
  | construct {i : Nat} {fields : List (String × Expr)} {type : ObjectType} (some : fields ≠ [])
      (worded : ∀ f ∈ fields, Worded f.1) (each : ∀ f ∈ fields, Legible p f.2)
      (shape : type = ObjectOf.ofShape (fields.map fun f => (f.1, f.2.ty))) :
      Legible p (.construct i type type.members (fields.map (·.2)))

theorem plainAllIff {es : List Expr} : plainAll es = true ↔ ∀ e ∈ es, e.plain = true := by
  induction es with
  | nil => simp [plainAll]
  | cons e es ih => simp [plainAll, ih]

theorem textsMap {es : List Expr} : texts es = es.map text := by
  induction es with
  | nil => rfl
  | cons e es ih => rw [texts, ih, List.map_cons]

theorem tokensMap {es : List Expr} : tokensAll es = es.map tokens := by
  induction es with
  | nil => rfl
  | cons e es ih => rw [tokensAll, ih, List.map_cons]

section Fields
variable {fields : List (String × Expr)} {member : String × Expr → Member}

theorem fieldTextsMap (named : ∀ f, (member f).name = f.1) :
    fieldTexts (fields.map member) (fields.map (·.2)) = fields.map fun f => f.1 ++ " = " ++ f.2.text := by
  induction fields with
  | nil => rfl
  | cons f fields ih => simp only [List.map_cons, fieldTexts, ih, named]

theorem fieldTokensMap (named : ∀ f, (member f).name = f.1) : fieldTokens (fields.map member) (fields.map (·.2)) =
    fields.map fun f => .identifier f.1 :: .assign :: f.2.tokens := by
  induction fields with
  | nil => rfl
  | cons f fields ih => simp only [List.map_cons, fieldTokens, ih, named]

end Fields

theorem shapeMembers (fields : List (String × Expr)) :
    (ObjectOf.ofShape (fields.map fun f => (f.1, f.2.ty))).members = fields.map fun f =>
      (⟨f.1, (ObjectOf.ofShape (fields.map fun f => (f.1, f.2.ty))).name, f.2.ty, .property⟩ : Member) := by
  simp only [ObjectOf.ofShape, ObjectOf.declare, List.map_map]
  rfl

variable {p : Param} {e : Expr}

theorem constructText {i : Nat} {fields : List (String × Expr)} {type : ObjectType} (some : fields ≠ [])
    (shape : type = ObjectOf.ofShape (fields.map fun f => (f.1, f.2.ty))) :
    (Expr.construct i type type.members (fields.map (·.2))).text =
      "new " ++ "" ++ "\x7b" ++ ", ".intercalate (fields.map fun f => f.1 ++ " = " ++ f.2.text) ++ "\x7d" := by
  have members := shapeMembers fields
  rw [← shape] at members
  have any : type.members.isEmpty = false := by
    rw [members, List.isEmpty_map]
    cases fields with
    | nil => exact absurd rfl some
    | cons => rfl
  have unnamed : typeName? type = none := by rw [shape]; rfl
  rw [text, any, unnamed, members, fieldTextsMap fun _ => rfl]
  rfl

theorem constructTokens {i : Nat} {fields : List (String × Expr)} {type : ObjectType}
    (shape : type = ObjectOf.ofShape (fields.map fun f => (f.1, f.2.ty))) :
    (Expr.construct i type type.members (fields.map (·.2))).tokens =
      .newWord :: .openBrace ::
        ([.comma].intercalate (fields.map fun f => .identifier f.1 :: .assign :: f.2.tokens) ++ [.closeBrace]) := by
  have members := shapeMembers fields
  rw [← shape] at members
  rw [tokens, members, fieldTokensMap fun _ => rfl]

theorem Legible.starts (legible : e.Legible p) (named : Worded p.name) : ∃ c rest, e.text.toList = c :: rest ∧ c ≠ '=' := by
  have behind {s t : String} (start : ∃ c rest, s.toList = c :: rest ∧ c ≠ '=') :
      ∃ c rest, (s ++ t).toList = c :: rest ∧ c ≠ '=' := by
    obtain ⟨c, rest, same, other⟩ := start
    exact ⟨c, rest ++ t.toList, by rw [String.toList_append, same, List.cons_append], other⟩
  induction legible with
  | constant spelled stands =>
    refine Token.spelledOther spelled ?_
    generalize Value.token _ = t at stands
    cases t <;> first | rfl | cases stands
  | parameter => exact Token.spelledOther named rfl
  | access _ _ _ _ _ _ ih => exact behind (behind ih)
  | getter _ _ _ _ _ _ ih => exact behind (behind (behind ih))
  | textCall _ _ _ _ _ _ _ ih => exact behind (behind (behind (behind (behind ih))))
  | @unary i op => cases op <;> exact behind ⟨_, _, rfl, by decide⟩
  | binary => exact behind (behind (behind (behind (behind (behind ⟨'(', [], rfl, by decide⟩)))))
  | construct some _ _ shape =>
    rw [constructText some shape]
    exact behind (behind (behind (behind ⟨'n', "ew ".toList, rfl, by decide⟩)))

theorem Legible.shows (legible : e.Legible p) (named : Worded p.name) : Shows e.text.toList e.tokens := by
  have dot : ".".toList = ['.'] := rfl
  have open' : "(".toList = ['('] := rfl
  have close : ")".toList = [')'] := rfl
  have both : "()".toList = ['(', ')'] := rfl
  have blank : " ".toList = [' '] := rfl
  induction legible with
  | constant spelled => exact Token.spellsShows spelled
  | parameter => exact Token.spellsShows named
  | access object bare worded declared held value ih =>
    intro tail more fits lexes
    simp only [text, tokens, String.toList_append, dot, List.append_assoc, List.cons_append, List.nil_append]
    exact ih _ _ worded.fits ((lexes.token worded fits.apart).mark rfl trivial)
  | getter object bare worded declared held method ih =>
    intro tail more fits lexes
    simp only [text, tokens, String.toList_append, dot, both, List.append_assoc, List.cons_append, List.nil_append]
    have called := (lexes.mark (t := .closeParen) rfl trivial).mark (t := .openParen) rfl trivial
    exact ih _ _ worded.fits ((called.token worded (fitsMark (by simp)).apart).mark rfl trivial)
  | @textCall i o method args object bare each undeclared text' arity assignable ih ihs =>
    intro tail more fits lexes
    simp only [text, tokens, String.toList_append, dot, open', close, List.append_assoc, List.cons_append, List.nil_append,
      textsMap, tokensMap]
    have inside := Token.commasShow ihs _ _ (fitsMark (by simp)) (lexes.mark (t := .closeParen) rfl trivial)
    have called := inside.mark (t := .openParen) rfl trivial
    have worded := Token.methodWorded method
    exact ih _ _ worded.fits ((called.token worded (fitsMark (by simp)).apart).mark rfl trivial)
  | @unary i op t o operand result ih =>
    intro tail more fits lexes
    simp only [text, tokens, String.toList_append, List.append_assoc, List.cons_append]
    -- an exclamation mark before an equality sign would be cut as one token
    obtain ⟨c, rest, same, other⟩ := operand.starts named
    refine (ih _ _ fits lexes).token op.spelled ?_
    rw [same]
    cases op with
    | not => exact fun d first => by cases first; exact other
    | negate => trivial
  | @binary i op t l r left right result ihl ihr =>
    intro tail more fits lexes
    simp only [text, tokens, String.toList_append, open', close, blank, List.append_assoc, List.cons_append, List.nil_append]
    have second := ihr _ _ (fitsMark (by simp)) (lexes.mark (t := .closeParen) rfl trivial)
    have spaced := (second.blank.token op.spelled (fitsMark (by simp)).apart).blank
    exact (ihl _ _ (fitsMark (by simp)) spaced).mark rfl trivial
  | @construct i fields type some worded each shape ihs =>
    intro tail more fits lexes
    have field : ∀ f ∈ fields, Shows (f.1 ++ " = " ++ f.2.text).toList (.identifier f.1 :: .assign :: f.2.tokens) := by
      intro f inside tail more fits lexes
      have equals : " = ".toList = [' ', '=', ' '] := rfl
      simp only [String.toList_append, equals, List.append_assoc, List.cons_append, List.nil_append]
      have value := (ihs f inside _ _ fits lexes).blank.mark (t := .assign) rfl (fitsMark (by simp)).apart
      exact value.blank.token (worded f inside) (fitsMark (by simp)).apart
    have start : "new ".toList = "new".toList ++ [' '] := rfl
    have nothing : "".toList = [] := rfl
    have open' : "\x7b".toList = ['\x7b'] := rfl
    have close : "\x7d".toList = ['\x7d'] := rfl
    simp only [constructText some shape, constructTokens shape, String.toList_append, start, nothing, open', close,
      List.append_assoc, List.cons_append, List.nil_append]
    have inside := Token.commasShow field _ _ (fitsMark (by simp)) (lexes.mark (t := .closeBrace) rfl trivial)
    exact (inside.mark (t := .openBrace) rfl trivial).blank.token Token.newSpelled (fitsMark (by simp)).apart

theorem textCallChecked {o : Expr} {method : TextMethod} {args : List Expr}
    (made : yields (Build.textCall o method args) e) :
    (o.ty == .string || o.ty == .any) = true ∧ (args.length == method.arity) = true ∧
      (∀ arg ∈ args, Ty.string.assignable arg.ty = true) ∧ ∃ i, e = .textCall i method o args := by
  obtain ⟨_, text, made⟩ := ofBind made
  obtain ⟨_, arity, made⟩ := ofBind made
  split at made
  · exact (notThrow made).elim
  · rename_i found
    refine ⟨Build.ofEnsure text, Build.ofEnsure arity, fun arg inside => ?_, Build.freshYields made⟩
    simpa using List.find?_eq_none.mp found arg inside

theorem methodNamed {name : String} {method : TextMethod} (known : TextMethod.ofName? name = some method) :
    method.name = name := eq_of_beq (List.find?_some (p := fun m : TextMethod => m.name == name) known)

theorem Wrought.legible {scope : Scope} {whole : Tokens} {q : Nat} {cs : List Char} (cuts : Token.Cuts q cs whole)
    (only : ∀ name r, scope.param? name = some r → r = p) (wrought : e.Wrought scope whole) (plain : e.plain = true) :
    e.Legible p := by
  have spelled {t : Token} {position : Nat} (here : (t, position) ∈ whole.toList) (other : t ≠ .eof) :
      ∃ raw, Token.Spells raw t := by
    rcases List.mem_append.mp here with inside | last
    · exact Token.cutsSpelled cuts _ inside
    · cases List.mem_singleton.mp last
      exact absurd rfl other
  have worded {name : String} {position : Nat} (here : (.identifier name, position) ∈ whole.toList) : Worded name :=
    Token.spelledWorded (spelled here (by simp)).choose_spec
  induction wrought with
  | @constant i position token ty value here stands =>
    cases token with
    | float x => cases stands; cases plain
    | integer n =>
      cases stands
      exact .constant (Token.integerSpelled (Token.integerWhole (spelled here (by simp)).choose_spec)) rfl
    | string s =>
      cases stands
      exact .constant (Token.stringSpelled (List.all_eq_true.mp plain)) rfl
    | boolean b => cases stands; exact .constant (Token.booleanSpelled b) rfl
    | null => cases stands; exact .constant Token.nullSpelled rfl
    | _ => cases stands
  | parameter here known =>
    cases only _ _ known
    exact .parameter
  | @read position name o e m object here declared made ih =>
    obtain ⟨_, held, made⟩ := ofBind made
    obtain ⟨i, _, last⟩ := ofBind (ofLiftT made)
    have same := Ty.memberName declared
    subst same
    cases method : m.isMethod <;> rw [method] at last <;> cases ofPure last <;>
      obtain ⟨plain, bare⟩ := Bool.and_eq_true_iff.mp plain
    · exact .access (ih plain) (by simpa using bare) (worded here) declared (Build.ofEnsure held) method
    · exact .getter (ih plain) (by simpa using bare) (worded here) declared (Build.ofEnsure held) method
  | @getter position name o e m object here declared made ih =>
    obtain ⟨declared, method⟩ := Option.filter_eq_some_iff.mp declared
    obtain ⟨_, _, made⟩ := ofBind made
    obtain ⟨_, held, made⟩ := ofBind made
    obtain ⟨i, rfl⟩ := Build.freshYields made
    have same := Ty.memberName declared
    subst same
    obtain ⟨plain, bare⟩ := Bool.and_eq_true_iff.mp plain
    exact .getter (ih plain) (by simpa using bare) (worded here) declared (Build.ofEnsure held) method
  | textCall object each undeclared known made ih ihs =>
    obtain ⟨text, arity, assignable, i, rfl⟩ := textCallChecked made
    cases methodNamed known
    obtain ⟨front, all⟩ := Bool.and_eq_true_iff.mp plain
    obtain ⟨plain, bare⟩ := Bool.and_eq_true_iff.mp front
    exact .textCall (ih plain) (by simpa using bare) (fun arg inside => ihs arg inside (plainAllIff.mp all arg inside))
      undeclared text arity assignable
  | unary operand made ih =>
    obtain ⟨i, t, result, rfl⟩ := Build.unaryYields made
    exact .unary (ih plain) result
  | binary left right made ihl ihr =>
    obtain ⟨i, t, result, rfl⟩ := Build.binaryYields made
    obtain ⟨plain, plain'⟩ := Bool.and_eq_true_iff.mp plain
    exact .binary (ihl plain) (ihr plain') result
  | convert operand made =>
    obtain ⟨i, rfl⟩ := Build.convertYields made
    cases plain
  | @anonymous fields e named each made ihs =>
    obtain ⟨i, _, last⟩ := ofBind made
    cases ofPure last
    obtain ⟨any, all⟩ := Bool.and_eq_true_iff.mp plain
    refine .construct ?_ (fun f inside => worded (named f inside).choose_spec)
      (fun f inside => ihs f inside (plainAllIff.mp all _ (List.mem_map_of_mem inside))) rfl
    rintro rfl
    cases any
  | populate made =>
    obtain ⟨i, t, rfl, _⟩ := Build.populateYields made
    cases plain

end Expr

end SymbolicQuery
