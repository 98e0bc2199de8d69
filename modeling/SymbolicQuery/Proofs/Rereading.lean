import SymbolicQuery.Proofs.Printing

/-! Reading what was printed. The tokens of an expression are read to an expression of the same shape, up to the token
behind it: parentheses stand around every operator between two operands, and calls, member reads and signs bind as shown. -/
namespace SymbolicQuery
open Results

def Param.renumber (f : Nat → Nat) (p : Param) : Param := { p with id := f p.id }

namespace Expr
variable {f : Nat → Nat} {e e' : Expr}

mutual

/-- The expression without the identities of its nodes, and with other identities of its parameters. -/
def shape (f : Nat → Nat) : Expr → Expr
  | .constant _ ty value => .constant 0 ty value
  | .parameter _ param => .parameter 0 (param.renumber f)
  | .reference _ source => .reference 0 source
  | .access _ object member => .access 0 (object.shape f) member
  | .getter _ object member => .getter 0 (object.shape f) member
  | .unary _ ty op operand => .unary 0 ty op (operand.shape f)
  | .binary _ ty op left right => .binary 0 ty op (left.shape f) (right.shape f)
  | .textCall _ method receiver args => .textCall 0 method (receiver.shape f) (shapes f args)
  | .stageCall _ ty stage input args => .stageCall 0 ty stage (input.shape f) (shapes f args)
  | .convert _ ty checked operand => .convert 0 ty checked (operand.shape f)
  | .construct _ type members args => .construct 0 type members (shapes f args)
  | .populate _ type base bindings => .populate 0 type (base.shape f) (bindingShapes f bindings)
  | .lambda _ params body => .lambda 0 (params.map (Param.renumber f)) (body.shape f)

def shapes (f : Nat → Nat) : List Expr → List Expr
  | [] => []
  | e :: rest => e.shape f :: shapes f rest

def bindingShapes (f : Nat → Nat) : List Binding → List Binding
  | [] => []
  | .assign m value :: rest => .assign m (value.shape f) :: bindingShapes f rest
  | .collect m items :: rest => .collect m (shapes f items) :: bindingShapes f rest

end

theorem shapeTy : (e : Expr) → (e.shape f).ty = e.ty
  | .lambda _ params body => by
    simp only [shape, ty, shapeTy body, List.map_map]
    rfl
  | .constant .. | .parameter .. | .reference .. | .access .. | .getter .. | .unary .. | .binary .. | .textCall ..
  | .stageCall .. | .convert .. | .construct .. | .populate .. => rfl

def Like (f : Nat → Nat) (e e' : Expr) : Prop := e'.shape (fun i => i) = e.shape f

theorem Like.sameTy (like : Like f e e') : e'.ty = e.ty := by
  rw [← shapeTy (f := fun i => i) e', ← shapeTy (f := f) e, like]

theorem likeAll {es es' : List Expr} (like : List.Forall₂ (Like f) es es') : shapes (fun i => i) es' = shapes f es := by
  induction like with
  | nil => rfl
  | cons head _ ih => rw [shapes, shapes, ih, head]

end Expr

def Lambda.shape (f : Nat → Nat) (l : Lambda) : Lambda := ⟨l.params.map (Param.renumber f), l.body.shape f⟩

namespace Reading
open SymbolicQuery.Expr
variable {α β γ : Type} {scope : Scope} {tokens left more : List Token} {token : Token} {x : Reading β} {P : α → Prop}
  {Q : γ → Prop} {y : α → Reading β} {z : γ → Reading β}

def Becomes (scope : Scope) (x : Reading β) (tokens : List Token) (P : α → Prop) (y : α → Reading β) (left : List Token) :
    Prop :=
  ∀ ts s, ts.pending.map (·.1) = tokens →
    ∃ a ts' s', P a ∧ ts'.pending.map (·.1) = left ∧ (x scope ts).run s = (y a scope ts').run s'

abbrev Comes (scope : Scope) (x : Reading α) (tokens : List Token) (P : α → Prop) (left : List Token) : Prop :=
  Becomes scope x tokens P pure left

theorem becomesSame {a : α} (holds : P a) : Becomes scope (y a) tokens P y tokens :=
  fun ts s same => ⟨a, ts, s, holds, same, rfl⟩

theorem Becomes.trans (first : Becomes scope x tokens P y left)
    (next : ∀ a, P a → Becomes scope (y a) left Q z more) : Becomes scope x tokens Q z more := by
  intro ts s same
  obtain ⟨a, ts₁, s₁, holds, kinds, run⟩ := first ts s same
  obtain ⟨c, ts₂, s₂, holds', kinds', run'⟩ := next a holds ts₁ s₁ kinds
  exact ⟨c, ts₂, s₂, holds', kinds', run.trans run'⟩

theorem comesBind {x : Reading α} (first : Comes scope x tokens P left) : Becomes scope (x >>= y) tokens P y left := by
  intro ts s same
  obtain ⟨a, ts', s', holds, kinds, run⟩ := first ts s same
  refine ⟨a, ts', s', holds, kinds, ?_⟩
  rw [bindRun, run]
  rfl

theorem Becomes.bind {k : β → Reading γ} (first : Becomes scope x tokens P y left) :
    Becomes scope (x >>= k) tokens P (fun a => y a >>= k) left := by
  intro ts s same
  obtain ⟨a, ts', s', holds, kinds, run⟩ := first ts s same
  exact ⟨a, ts', s', holds, kinds, by rw [bindRun, bindRun, run]⟩

theorem comesThen {x : Reading α} (first : Comes scope x tokens P left)
    (next : ∀ a, P a → Becomes scope (y a) left Q z more) : Becomes scope (x >>= y) tokens Q z more :=
  (comesBind first).trans next

theorem becomesSeen {f : Placed → Reading β}
    (here : ∀ position, Becomes scope (f (tokens.headD .eof, position)) tokens P y left) :
    Becomes scope (next >>= f) tokens P y left := by
  rintro ⟨pending, finish⟩ s rfl
  cases pending with
  | nil => exact here finish ⟨[], finish⟩ s rfl
  | cons placed rest => exact here placed.2 ⟨placed :: rest, finish⟩ s rfl

theorem becomesSees {f : Bool → Reading β} (here : Becomes scope (f (tokens.headD .eof == token)) tokens P y left) :
    Becomes scope (sees token >>= f) tokens P y left := by
  rintro ⟨pending, finish⟩ s rfl
  cases pending with
  | nil => exact here ⟨[], finish⟩ s rfl
  | cons placed rest => exact here ⟨placed :: rest, finish⟩ s rfl

theorem becomesAdvance {f : Unit → Reading β} (after : Becomes scope (f ()) tokens.tail P y left) :
    Becomes scope (advance >>= f) tokens P y left := fun ts s same =>
  after ts.advance s (by rw [← same, ← List.map_tail]; rfl)

theorem becomesTake {f : Placed → Reading β}
    (after : ∀ position, Becomes scope (f (token, position)) (.eof :: tokens) P y left) :
    Becomes scope (take >>= f) (token :: tokens) P y left := by
  rintro ⟨pending, finish⟩ s same
  cases pending with
  | nil => cases same
  | cons placed rest =>
    cases same
    exact after placed.2 ⟨(.eof, placed.2) :: rest, finish⟩ s rfl

theorem becomesScope {f : Scope → Reading β} (here : Becomes scope (f scope) tokens P y left) :
    Becomes scope (read >>= f) tokens P y left := here

theorem comesWithin {change : Scope → Scope} {x : Reading α} (inner : Comes (change scope) x tokens P left) :
    Comes scope (withReader change x) tokens P left := inner

theorem comesFresh {work : Fresh α} (holds : ∀ s, P (work s).1) : Comes scope (liftM work) tokens P tokens :=
  fun ts s same => ⟨_, ts, (work s).2, holds s, same, rfl⟩

theorem comesBuild {position : Nat} {work : Build α} (made : ∀ s, ∃ a s', work.run s = (.ok a, s') ∧ P a) :
    Comes scope (build position work) tokens P tokens := by
  intro ts s same
  obtain ⟨a, s', run, holds⟩ := made s
  refine ⟨a, ts, s', holds, same, ?_⟩
  change ((((work.run s).1.map (·, ts)).mapError (.query · position) : Except ParseError (α × Tokens)), (work.run s).2) = _
  rw [run]
  rfl

theorem becomesExpect {f : Unit → Reading β} (after : Becomes scope (f ()) tokens P y left) :
    Becomes scope (expect token >>= f) (token :: tokens) P y left := by
  have seen : Comes scope (expect token) (token :: tokens) (fun _ => True) tokens := by
    refine becomesSees ?_
    rw [List.headD_cons, beq_self_eq_true, if_pos rfl]
    exact becomesAdvance (f := pure) (becomesSame trivial)
  exact comesThen seen fun _ _ => after

theorem becomesIdentifier {name : String} {f : String × Nat → Reading β}
    (after : ∀ position, Becomes scope (f (name, position)) tokens P y left) :
    Becomes scope (identifier >>= f) (.identifier name :: tokens) P y left := by
  have seen : Comes scope identifier (.identifier name :: tokens) (fun found => found.1 = name) tokens :=
    becomesSeen fun position => becomesAdvance (becomesSame rfl)
  refine comesThen seen ?_
  rintro ⟨_, position⟩ rfl
  exact after position

theorem becomesAccepted {f : Bool → Reading β} (after : Becomes scope (f true) tokens P y left) :
    Becomes scope (accepts token >>= f) (token :: tokens) P y left := by
  have seen : Comes scope (accepts token) (token :: tokens) (· = true) tokens := by
    refine becomesSees ?_
    rw [List.headD_cons, beq_self_eq_true, if_pos rfl]
    exact becomesAdvance (becomesSame rfl)
  exact comesThen seen fun _ same => same ▸ after

theorem becomesUnaccepted {f : Bool → Reading β} (other : tokens.headD .eof ≠ token)
    (after : Becomes scope (f false) tokens P y left) : Becomes scope (accepts token >>= f) tokens P y left := by
  have seen : Comes scope (accepts token) tokens (· = false) tokens := by
    refine becomesSees ?_
    rw [beq_eq_false_iff_ne.mpr other]
    exact becomesSame (y := pure) rfl
  exact comesThen seen fun _ same => same ▸ after

section Loops
variable {step : α → Reading (Option α)} {a : α}

theorem iterateOn (unrolls : Unrolls step) (goes : Comes scope (step a) tokens (fun r => ∃ b, r = some b ∧ P b) left) :
    Becomes scope (iterate step a) tokens P (iterate step) left := by
  rw [unrolls a]
  refine comesThen goes ?_
  rintro _ ⟨b, rfl, holds⟩
  exact becomesSame (y := iterate step) holds

theorem iterateOff (unrolls : Unrolls step) (stops : Comes scope (step a) tokens (· = none) tokens) (holds : P a) :
    Comes scope (iterate step a) tokens P tokens := by
  rw [unrolls a]
  refine comesThen stops ?_
  rintro _ rfl
  exact becomesSame (y := pure) holds

end Loops

/-- An item is read in a list: the closing token is not its first one, and a comma or the closing token ends it. -/
structure Listed (scope : Scope) (close : Token) (item : Reading α) (tokens : List Token) (P : α → Prop) : Prop where
  opens : ∀ rest, (tokens ++ rest).headD .eof ≠ close
  reads : ∀ more, more.headD .eof = .comma ∨ more.headD .eof = close → Comes scope item (tokens ++ more) P more

section Items
variable {item : Reading α} {close : Token} {gs : List γ} {R : γ → α → Prop} {shown : γ → List Token}

theorem oneMoreComes {g : γ} (items : List α) (opens : tokens.headD .eof ≠ close) (left : more.headD .eof = close ∨
    ∃ rest, more = .comma :: rest ∧ .comma ≠ close) (reads : Comes scope item tokens (R g) more) :
    Comes scope (oneMore close item items) tokens (fun r => ∃ b, r = some b ∧ ∃ a, R g a ∧ b = a :: items)
      (if more.headD .eof = close then more else more.tail) := by
  refine becomesSees ?_
  rw [beq_eq_false_iff_ne.mpr opens]
  refine comesThen reads fun a holds => becomesSees ?_
  rcases left with same | ⟨rest, rfl, other⟩
  · rw [same, beq_self_eq_true, if_pos rfl]
    exact becomesSame (y := pure) ⟨_, rfl, a, holds, rfl⟩
  · rw [List.headD_cons, beq_eq_false_iff_ne.mpr other, if_neg other]
    exact becomesExpect (becomesSame ⟨_, rfl, a, holds, rfl⟩)

theorem iterateItems (unrolls : Unrolls (oneMore close item)) (other : .comma ≠ close)
    (each : ∀ g ∈ gs, Listed scope close item (shown g) (R g)) (items : List α) :
    Comes scope (iterate (oneMore close item) items) ([.comma].intercalate (gs.map shown) ++ close :: more)
      (fun made => ∃ as, List.Forall₂ R gs as ∧ made = as.reverse ++ items) (close :: more) := by
  induction gs generalizing items with
  | nil =>
    refine iterateOff unrolls (becomesSees ?_) ⟨[], .nil, rfl⟩
    rw [show (([Token.comma].intercalate (List.map shown []) ++ close :: more).headD .eof == close) = true from
      beq_self_eq_true close]
    exact becomesSame (y := pure) rfl
  | cons g gs ih =>
    obtain ⟨⟨opens, reads⟩, later⟩ := List.forall_mem_cons.mp each
    have goOn {tokens : List Token} (goes : Comes scope (oneMore close item items) tokens
        (fun r => ∃ b, r = some b ∧ ∃ a, R g a ∧ b = a :: items) ([.comma].intercalate (gs.map shown) ++ close :: more)) :
        Comes scope (iterate (oneMore close item) items) tokens
          (fun made => ∃ as, List.Forall₂ R (g :: gs) as ∧ made = as.reverse ++ items) (close :: more) := by
      refine (iterateOn unrolls goes).trans ?_
      rintro _ ⟨a, holds, rfl⟩
      refine (ih later (a :: items)).trans ?_
      rintro _ ⟨as, related, rfl⟩
      exact becomesSame ⟨a :: as, .cons holds related, by simp⟩
    cases gs with
    | nil =>
      have step := oneMoreComes items (opens (close :: more)) (.inl rfl) (reads (close :: more) (.inr rfl))
      rw [List.headD_cons, if_pos rfl] at step
      simpa using goOn (by simpa using step)
    | cons h gs =>
      have step := oneMoreComes items (opens _) (.inr ⟨_, rfl, other⟩)
        (reads (.comma :: ([.comma].intercalate ((h :: gs).map shown) ++ close :: more)) (.inl rfl))
      rw [List.headD_cons, if_neg other] at step
      have next := goOn step
      simpa only [List.map_cons, List.intercalate_cons_cons, List.append_assoc, List.cons_append, List.nil_append] using next

theorem itemsCome (unrolls : Unrolls (oneMore close item)) (other : .comma ≠ close)
    (each : ∀ g ∈ gs, Listed scope close item (shown g) (R g)) :
    Comes scope (itemsUntil close item) ([.comma].intercalate (gs.map shown) ++ close :: more) (List.Forall₂ R gs) more := by
  refine comesThen (iterateItems unrolls other each []) ?_
  rintro _ ⟨as, related, rfl⟩
  exact becomesExpect (becomesSame (by simpa using related))

end Items

section Operators
variable {operator? : Token → Option BinaryOp} {x : Reading Expr} {f : Nat → Nat} {op : BinaryOp} {t : Ty} {i : Nat}
  {l l' r r' : Expr} {P : Expr → Prop}

theorem binaryLike (result : op.result? l.ty r.ty = some t) (left : Like f l l') (right : Like f r r') (s : Supply) :
    ∃ e s', (Build.binary op l' r').run s = (.ok e, s') ∧ Like f (.binary i t op l r) e := by
  unfold Build.binary
  rw [left.sameTy, right.sameTy, result]
  exact ⟨_, _, rfl, by rw [Like, shape, shape, left, right]⟩

theorem unaryLike {op : UnaryOp} {o o' : Expr} (result : op.result? o.ty = some t) (like : Like f o o') (s : Supply) :
    ∃ e s', (Build.unary op o').run s = (.ok e, s') ∧ Like f (.unary i t op o) e := by
  unfold Build.unary
  rw [like.sameTy, result]
  exact ⟨_, _, rfl, by rw [Like, shape, shape, like]⟩

theorem operationStops (none : operator? (tokens.headD .eof) = none) {e : Expr} :
    Comes scope (operation operator? x e) tokens (· = Option.none) tokens := by
  refine becomesSeen fun position => ?_
  dsimp only
  rw [none]
  exact becomesSame (y := pure) rfl

theorem operationGoes (found : operator? token = some op) (like : Like f l l')
    (second : Comes scope x tokens (Like f r) more) (result : op.result? l.ty r.ty = some t) : Comes scope (operation operator? x l') (token :: tokens)
      (fun made => ∃ e, made = some e ∧ Like f (.binary i t op l r) e) more := by
  refine becomesSeen fun position => ?_
  dsimp only [List.headD_cons]
  rw [found]
  refine becomesAdvance (comesThen second fun r' like' => ?_)
  exact comesThen (comesBuild (binaryLike result like like')) fun e made => becomesSame (y := pure) ⟨e, rfl, made⟩

theorem groupedOver (unrolls : Unrolls (operation operator? x)) (none : operator? (more.headD .eof) = none)
    (first : Comes scope x tokens P more) : Comes scope (leftGrouped operator? x) tokens P more :=
  comesThen first fun _ holds => iterateOff unrolls (operationStops none) holds

theorem groupedBoth (unrolls : Unrolls (operation operator? x)) (none : operator? (more.headD .eof) = none)
    (found : operator? token = some op) (result : op.result? l.ty r.ty = some t)
    (first : Comes scope x tokens (Like f l) (token :: left)) (second : Comes scope x left (Like f r) more) :
    Comes scope (leftGrouped operator? x) tokens (Like f (.binary i t op l r)) more :=
  comesThen first fun _ like => (iterateOn unrolls (operationGoes found like second result)).trans fun _ made =>
    iterateOff unrolls (operationStops none) made

theorem singleOver (none : operator? (more.headD .eof) = none) (first : Comes scope x tokens P more) :
    Comes scope (single operator? x) tokens P more := by
  refine comesThen first fun e holds => comesThen (operationStops none) ?_
  rintro _ rfl
  exact becomesSame (y := pure) holds

theorem singleBoth (found : operator? token = some op) (result : op.result? l.ty r.ty = some t)
    (first : Comes scope x tokens (Like f l) (token :: left)) (second : Comes scope x left (Like f r) more) :
    Comes scope (single operator? x) tokens (Like f (.binary i t op l r)) more := by
  refine comesThen first fun l' like => comesThen (operationGoes (i := i) found like second result) ?_
  rintro _ ⟨e, rfl, made⟩
  exact becomesSame (y := pure) made

def applySigns (signs : List (UnaryOp × Nat)) (e : Expr) : Reading Expr :=
  signs.foldlM (fun e (op, position) => build position (Build.unary op e)) e

def behindSigns (operand : Reading Expr) (read : List (UnaryOp × Nat)) : Reading Expr := do
  let signs ← iterate oneSign read
  applySigns signs (← operand)

end Operators

def ends (operators : List (Token → Option BinaryOp)) (t : Token) : Bool :=
  t != .dot && t != .asWord && t != .openParen && operators.all fun operator? => (operator? t).isNone

theorem endsMore {operators : List (Token → Option BinaryOp)} {operator? : Token → Option BinaryOp} {t : Token}
    (known : ends (operator? :: operators) t = true) : operator? t = none ∧ ends operators t = true := by
  simp only [ends, List.all_cons, Bool.and_eq_true, Option.isNone_iff_eq_none] at known ⊢
  exact ⟨known.2.1, known.1, known.2.2⟩

structure Restored (scope : Scope) (f : Nat → Nat) (e : Expr) : Prop where
  /-- an operand is read with all that is behind it -/
  operand : e.isUnary = false → ∀ more, more.headD .eof ≠ .openParen →
    Becomes scope (suffixed expression) (e.tokens ++ more) (Like f e) (iterate (suffix expression)) more
  signed : ∀ signs more, ends [] (more.headD .eof) = true →
    Becomes scope (behindSigns (suffixed expression) signs) (e.tokens ++ more) (Like f e) (applySigns signs) more

namespace Restored
variable {f : Nat → Nat} {e l r : Expr}

theorem toSigned (restored : Restored scope f e) (last : ends [] (more.headD .eof) = true) :
    Comes scope (Reading.signed (suffixed expression)) (e.tokens ++ more) (Like f e) more := restored.signed [] more last

theorem toProduct (restored : Restored scope f e) (last : ends [productOperator?] (more.headD .eof) = true) :
    Comes scope (product expression) (e.tokens ++ more) (Like f e) more :=
  groupedOver boundless.products (endsMore last).1 (restored.toSigned (endsMore last).2)

theorem toSum (restored : Restored scope f e) (last : ends [sumOperator?, productOperator?] (more.headD .eof) = true) :
    Comes scope (sum expression) (e.tokens ++ more) (Like f e) more :=
  groupedOver boundless.sums (endsMore last).1 (restored.toProduct (endsMore last).2)

theorem toComparison (restored : Restored scope f e)
    (last : ends [comparison?, sumOperator?, productOperator?] (more.headD .eof) = true) :
    Comes scope (comparison expression) (e.tokens ++ more) (Like f e) more :=
  singleOver (endsMore last).1 (restored.toSum (endsMore last).2)

theorem toConjunction (restored : Restored scope f e)
    (last : ends [andOperator?, comparison?, sumOperator?, productOperator?] (more.headD .eof) = true) :
    Comes scope (conjunction expression) (e.tokens ++ more) (Like f e) more :=
  groupedOver boundless.conjunctions (endsMore last).1 (restored.toComparison (endsMore last).2)

theorem toExpression (restored : Restored scope f e)
    (last : ends [orOperator?, andOperator?, comparison?, sumOperator?, productOperator?] (more.headD .eof) = true) :
    Comes scope expression (e.tokens ++ more) (Like f e) more := by
  rw [boundless.nesting]
  exact groupedOver boundless.disjunctions (endsMore last).1 (restored.toConjunction (endsMore last).2)

theorem both {op : BinaryOp} {t : Ty} {i : Nat} (left : Restored scope f l) (right : Restored scope f r)
    (result : op.result? l.ty r.ty = some t) :
    Comes scope expression (l.tokens ++ op.token :: (r.tokens ++ .closeParen :: more)) (Like f (.binary i t op l r))
      (.closeParen :: more) := by
  rw [boundless.nesting]
  have overComparison {tokens : List Token} {P : Expr → Prop}
      (first : Comes scope (comparison expression) tokens P (.closeParen :: more)) :
      Comes scope (expressionOver expression) tokens P (.closeParen :: more) :=
    groupedOver boundless.disjunctions rfl (groupedOver boundless.conjunctions rfl first)
  have overSum {tokens : List Token} {P : Expr → Prop}
      (first : Comes scope (sum expression) tokens P (.closeParen :: more)) :
      Comes scope (comparison expression) tokens P (.closeParen :: more) := singleOver rfl first
  cases op with
  | multiply | divide | modulo =>
    exact overComparison (overSum (groupedOver boundless.sums rfl
      (groupedBoth boundless.products rfl rfl result (left.toSigned rfl) (right.toSigned rfl))))
  | add | subtract =>
    exact overComparison (overSum (groupedBoth boundless.sums rfl rfl result (left.toProduct rfl) (right.toProduct rfl)))
  | equal | notEqual | less | greater | lessEqual | greaterEqual =>
    exact overComparison (singleBoth rfl result (left.toSum rfl) (right.toSum rfl))
  | and =>
    exact groupedOver boundless.disjunctions rfl
      (groupedBoth boundless.conjunctions rfl rfl result (left.toComparison rfl) (right.toComparison rfl))
  | or => exact groupedBoth boundless.disjunctions rfl rfl result (left.toConjunction rfl) (right.toConjunction rfl)

end Restored

section Suffixes
variable {f : Nat → Nat} {o o' : Expr} {m : Member} {i : Nat} {P : Expr → Prop}

theorem suffixStops (last : ends [] (tokens.headD .eof) = true) {e : Expr} :
    Comes scope (suffix expression e) tokens (· = none) tokens := by
  refine becomesSeen fun position => ?_
  generalize tokens.headD .eof = t at last
  cases t with
  | dot | asWord => cases last
  | _ => exact becomesSame (y := pure) rfl

theorem someComes {x : Reading Expr} (comes : Comes scope x tokens P left) :
    Comes scope (some <$> x) tokens (fun made => ∃ e, made = some e ∧ P e) left :=
  comesThen comes fun e holds => becomesSame (y := pure) ⟨e, rfl, holds⟩

theorem argumentsCome {args : List Expr}
    (each : ∀ arg ∈ args, Listed scope .closeParen expression arg.tokens (Like f arg)) :
    Comes scope (itemsUntil .closeParen expression) ([.comma].intercalate (tokensAll args) ++ .closeParen :: more)
      (List.Forall₂ (Like f) args) more := by
  rw [tokensMap]
  exact itemsCome boundless.arguments (by decide) each

theorem memberGoes (declared : o.ty.member? m.name = some m) (held : o.ty.declares m = true) (value : m.isMethod = false)
    (other : more.headD .eof ≠ .openParen) (like : Like f o o') :
    Comes scope (suffix expression o') (.dot :: .identifier m.name :: more)
      (fun made => ∃ e, made = some e ∧ Like f (.access i o m) e) more := by
  refine becomesSeen fun position => becomesAdvance (becomesIdentifier fun position => becomesUnaccepted other ?_)
  refine someComes (comesBuild fun s => ?_)
  rw [like.sameTy, declared]
  simp only [Build.read, like.sameTy, held]
  refine ⟨.access s.node o' m, { s with node := s.node + 1 }, ?_, by rw [Like, shape, shape, like]⟩
  simp only [Build.readNode, value]
  rfl

theorem getterGoes (declared : o.ty.member? m.name = some m) (held : o.ty.declares m = true) (method : m.isMethod = true)
    (like : Like f o o') :
    Comes scope (suffix expression o') (.dot :: .identifier m.name :: .openParen :: .closeParen :: more)
      (fun made => ∃ e, made = some e ∧ Like f (.getter i o m) e) more := by
  refine becomesSeen fun position => becomesAdvance (becomesIdentifier fun position => becomesAccepted ?_)
  have nothing : Comes scope (itemsUntil .closeParen expression) (.closeParen :: more) (· = []) more :=
    (argumentsCome (f := f) (List.forall_mem_nil _)).trans fun _ none => by cases none; exact becomesSame rfl
  refine comesThen nothing ?_
  rintro _ rfl
  refine someComes ?_
  unfold methodCall
  rw [like.sameTy, declared, Option.filter_some, if_pos method]
  refine comesBuild fun s => ⟨.getter s.node o' m, { s with node := s.node + 1 }, ?_, by rw [Like, shape, shape, like]⟩
  simp only [Build.getter, like.sameTy, held, method]
  rfl

theorem methodFound (method : TextMethod) : TextMethod.ofName? method.name = some method := by cases method <;> rfl

theorem likeAssignable {t : Ty} {args args' : List Expr} (like : List.Forall₂ (Like f) args args')
    (assignable : ∀ arg ∈ args, t.assignable arg.ty = true) : ∀ arg ∈ args', t.assignable arg.ty = true := by
  induction like with
  | nil => simp
  | cons head _ ih =>
    obtain ⟨here, later⟩ := List.forall_mem_cons.mp assignable
    exact List.forall_mem_cons.mpr ⟨head.sameTy ▸ here, ih later⟩

theorem textCallLike {method : TextMethod} {args args' : List Expr} (like : Like f o o')
    (likes : List.Forall₂ (Like f) args args') (text : (o.ty == .string || o.ty == .any) = true)
    (arity : (args.length == method.arity) = true) (assignable : ∀ arg ∈ args, Ty.string.assignable arg.ty = true)
    (s : Supply) : ∃ e s', (Build.textCall o' method args').run s = (.ok e, s') ∧ Like f (.textCall i method o args) e := by
  have none : args'.find? (fun arg => !Ty.string.assignable arg.ty) = none :=
    List.find?_eq_none.mpr fun arg inside => by simp [likeAssignable likes assignable arg inside]
  refine ⟨.textCall s.node method o' args', { s with node := s.node + 1 }, ?_, ?_⟩
  · unfold Build.textCall
    rw [like.sameTy, text, ← likes.length_eq, arity, none]
    rfl
  · rw [Like, shape, shape, like, likeAll likes]

theorem textCallGoes {method : TextMethod} {args : List Expr}
    (undeclared : (o.ty.member? method.name).filter MemberOf.isMethod = none)
    (text : (o.ty == .string || o.ty == .any) = true) (arity : (args.length == method.arity) = true)
    (assignable : ∀ arg ∈ args, Ty.string.assignable arg.ty = true) (like : Like f o o')
    (each : ∀ arg ∈ args, Listed scope .closeParen expression arg.tokens (Like f arg)) :
    Comes scope (suffix expression o')
      (.dot :: .identifier method.name :: .openParen :: ([.comma].intercalate (tokensAll args) ++ .closeParen :: more))
      (fun made => ∃ e, made = some e ∧ Like f (.textCall i method o args) e) more := by
  refine becomesSeen fun position => becomesAdvance (becomesIdentifier fun position => becomesAccepted ?_)
  refine comesThen (argumentsCome each) fun args' likes => someComes ?_
  unfold methodCall
  rw [like.sameTy, undeclared, methodFound]
  exact comesBuild (textCallLike like likes text arity assignable)

end Suffixes

section Operands
variable {f : Nat → Nat} {e : Expr} {p : Param} {i : Nat}

theorem literalComes {node : Fresh Expr} {position : Nat} {P : Expr → Prop} {t : Token} (holds : ∀ s, P (node s).1) :
    Comes scope (literal node position) (t :: tokens) P tokens :=
  becomesAdvance (comesBuild fun s => ⟨(node s).1, (node s).2, rfl, holds s⟩)

theorem constantComes {t : Token} {ty : Ty} {value : Value} (stands : t.constant? = some (ty, value)) :
    Comes scope (operand expression) (t :: more) (Like f (.constant i ty value)) more := by
  refine becomesTake fun position => ?_
  cases t with
  | float | integer | string | boolean | null =>
    cases stands
    exact literalComes fun s => rfl
  | _ => cases stands

theorem parameterComes (known : scope.param? p.name = some (p.renumber f)) :
    Comes scope (operand expression) (.identifier p.name :: more) (Like f (.parameter i p)) more := by
  refine becomesTake fun position => becomesScope ?_
  rw [known]
  exact literalComes fun s => rfl

theorem parenthesesCome {P : Expr → Prop} (inner : Comes scope expression tokens P (.closeParen :: more)) :
    Comes scope (operand expression) (.openParen :: tokens) P more :=
  becomesTake fun _ => becomesAdvance (comesThen inner fun _ holds => becomesExpect (becomesSame (y := pure) holds))

theorem fieldsCome {fields : List (String × Expr)}
    (each : ∀ g ∈ fields, Listed scope .closeBrace expression g.2.tokens (Like f g.2)) :
    Comes scope (itemsUntil .closeBrace (field expression))
      ([.comma].intercalate (fields.map fun g => .identifier g.1 :: .assign :: g.2.tokens) ++ .closeBrace :: more)
      (List.Forall₂ (fun g h => h.1 = g.1 ∧ Like f g.2 h.2.2) fields) more := by
  refine itemsCome boundless.fields (by decide) fun g inside => ⟨fun rest => by simp, fun more last => ?_⟩
  refine becomesIdentifier fun position => becomesExpect ?_
  exact comesThen ((each g inside).reads more last) fun e like => becomesSame (y := pure) ⟨rfl, like⟩

theorem anonymousLike {fields : List (String × Expr)} {read : List (String × Nat × Expr)} {type : ObjectType}
    (shape : type = ObjectOf.ofShape (fields.map fun g => (g.1, g.2.ty)))
    (related : List.Forall₂ (fun g h => h.1 = g.1 ∧ Like f g.2 h.2.2) fields read) (s : Supply) :
    Like f (.construct i type type.members (fields.map (·.2)))
      (Build.anonymous (read.map fun h => (h.1, h.2.2)) s).1 := by
  have types : (read.map fun h => (h.1, h.2.2)).map (fun g => (g.1, g.2.ty)) = fields.map fun g => (g.1, g.2.ty) := by
    clear shape
    induction related with
    | nil => rfl
    | cons head _ ih => simp only [List.map_cons, ih, head.1, head.2.sameTy]
  have values : List.Forall₂ (Like f) (fields.map (·.2)) ((read.map fun h => (h.1, h.2.2)).map (·.2)) := by
    clear shape types
    induction related with
    | nil => exact .nil
    | cons head _ ih => exact .cons head.2 ih
  change Like f _ (.construct s.node (ObjectOf.ofShape _) (ObjectOf.ofShape _).members _)
  rw [types, ← shape, Like, Expr.shape, Expr.shape, likeAll values]

theorem constructComes {fields : List (String × Expr)} {type : ObjectType}
    (shape : type = ObjectOf.ofShape (fields.map fun g => (g.1, g.2.ty)))
    (each : ∀ g ∈ fields, Listed scope .closeBrace expression g.2.tokens (Like f g.2)) :
    Comes scope (operand expression) ((Expr.construct i type type.members (fields.map (·.2))).tokens ++ more)
      (Like f (.construct i type type.members (fields.map (·.2)))) more := by
  simp only [constructTokens shape, List.cons_append, List.append_assoc, List.nil_append]
  refine becomesTake fun position => becomesAdvance ?_
  have unnamed {rest : List Token} : Comes scope constructedType? (.openBrace :: rest) (· = none) (.openBrace :: rest) :=
    becomesSeen fun _ => becomesSame (y := pure) rfl
  refine comesThen unnamed ?_
  rintro _ rfl
  refine becomesExpect (comesThen (fieldsCome each) fun read related => comesBuild fun s => ?_)
  exact ⟨_, (Build.anonymous (read.map fun h => (h.1, h.2.2)) s).2, rfl, anonymousLike shape related s⟩

theorem opens (legible : e.Legible p) :
    ∃ t rest, e.tokens = t :: rest ∧ t ∉ [.closeParen, .closeBrace] ∧ (e.isUnary = false → sign? t = none) := by
  have behind {o : Expr} {after : List Token} (bare : o.isUnary = false)
      (first : ∃ t rest, o.tokens = t :: rest ∧ t ∉ [.closeParen, .closeBrace] ∧ (o.isUnary = false → sign? t = none)) :
      ∃ t rest, o.tokens ++ after = t :: rest ∧ t ∉ [.closeParen, .closeBrace] ∧ (false = false → sign? t = none) := by
    obtain ⟨t, rest, same, open', sign⟩ := first
    exact ⟨t, rest ++ after, by rw [same, List.cons_append], open', fun _ => sign bare⟩
  induction legible with
  | @constant i ty value spelled stands =>
    refine ⟨value.token, [], rfl, ?_⟩
    generalize value.token = t at stands
    cases t with
    | float | integer | string | boolean | null => exact ⟨by simp, fun _ => rfl⟩
    | _ => cases stands
  | parameter => exact ⟨_, _, rfl, by simp, fun _ => rfl⟩
  | access _ bare _ _ _ _ ih => exact behind bare ih
  | getter _ bare _ _ _ _ ih => exact behind bare ih
  | textCall _ bare _ _ _ _ _ ih => exact behind bare ih
  | @unary i op => exact ⟨op.token, _, rfl, by cases op <;> decide, fun same => by cases same⟩
  | binary => exact ⟨_, _, rfl, by decide, fun _ => rfl⟩
  | construct => exact ⟨_, _, rfl, by decide, fun _ => rfl⟩

theorem Restored.listed {close : Token} (restored : Restored scope f e) (legible : e.Legible p)
    (closes : close ∈ [Token.closeParen, .closeBrace]) : Listed scope close expression e.tokens (Like f e) := by
  refine ⟨fun rest same => ?_, fun more last => restored.toExpression ?_⟩
  · obtain ⟨t, ts, shown, open', _⟩ := opens legible
    rw [shown, List.cons_append, List.headD_cons] at same
    exact open' (same ▸ closes)
  · rcases last with same | same <;> rw [same]
    · rfl
    · rcases List.mem_pair.mp closes with rfl | rfl <;> rfl

theorem restoredOperand (legible : e.Legible p) (bare : e.isUnary = false) (operand : ∀ more, more.headD .eof ≠ .openParen →
    Becomes scope (suffixed expression) (e.tokens ++ more) (Like f e) (iterate (suffix expression)) more) :
    Restored scope f e := by
  refine ⟨fun _ => operand, fun signs more last => ?_⟩
  obtain ⟨t, rest, same, _, sign⟩ := opens legible
  have other : more.headD .eof ≠ .openParen := fun same => by rw [same] at last; cases last
  have noSign : Comes scope (iterate oneSign signs) (e.tokens ++ more) (· = signs) (e.tokens ++ more) := by
    refine iterateOff boundless.signs (becomesSeen fun position => ?_) rfl
    rw [same, List.cons_append, List.headD_cons]
    dsimp only
    rw [sign bare]
    exact becomesSame (y := pure) rfl
  refine comesThen noSign ?_
  rintro _ rfl
  exact comesBind ((operand more other).trans fun e' like => iterateOff boundless.suffixes (suffixStops last) like)

theorem restored (legible : e.Legible p) (known : scope.param? p.name = some (p.renumber f)) : Restored scope f e := by
  -- Reading the tokens of an expression by induction on the expression: an operand goes on with
  -- what is behind it, a sign is put off until its operand is read, and parentheses hold whole
  -- expressions.
  induction legible with
  | @constant i ty value spelled stands =>
    exact restoredOperand (p := p) (.constant spelled stands) rfl fun more _ => comesBind (constantComes stands)
  | parameter => exact restoredOperand .parameter rfl fun more _ => comesBind (parameterComes known)
  | @access i o m object bare worded declared held value ih =>
    refine restoredOperand (.access object bare worded declared held value) rfl fun more other => ?_
    rw [tokens, List.append_assoc]
    exact (ih.operand bare _ (by simp)).trans fun o' like =>
      iterateOn boundless.suffixes (memberGoes declared held value other like)
  | @getter i o m object bare worded declared held method ih =>
    refine restoredOperand (.getter object bare worded declared held method) rfl fun more other => ?_
    rw [tokens, List.append_assoc]
    exact (ih.operand bare _ (by simp)).trans fun o' like =>
      iterateOn boundless.suffixes (getterGoes declared held method like)
  | @textCall i o method args object bare each undeclared text arity assignable ih ihs =>
    refine restoredOperand (.textCall object bare each undeclared text arity assignable) rfl fun more other => ?_
    simp only [tokens, List.append_assoc, List.cons_append, List.nil_append]
    have listed := fun arg inside => (ihs arg inside).listed (each arg inside) (List.mem_cons_self (a := Token.closeParen))
    exact (ih.operand bare _ (by simp)).trans fun o' like =>
      iterateOn boundless.suffixes (textCallGoes undeclared text arity assignable like listed)
  | @unary i op t o operand result ih =>
    refine ⟨fun bare => (by cases bare), fun signs more last => ?_⟩
    have oneMore : Becomes scope (iterate oneSign signs) (op.token :: (o.tokens ++ more))
        (fun b => ∃ position, b = (op, position) :: signs) (iterate oneSign) (o.tokens ++ more) := by
      refine iterateOn boundless.signs (becomesSeen fun position => ?_)
      cases op <;> exact becomesAdvance (becomesSame (y := pure) ⟨_, rfl, position, rfl⟩)
    refine (oneMore.bind (k := fun signs => suffixed expression >>= applySigns signs)).trans ?_
    rintro _ ⟨position, rfl⟩
    refine (ih.signed ((op, position) :: signs) more last).trans fun o' like => ?_
    rw [applySigns, List.foldlM_cons]
    exact comesBind (comesBuild (unaryLike result like))
  | @binary i op t l r left right result ihl ihr =>
    refine restoredOperand (.binary left right result) rfl fun more _ => ?_
    simp only [tokens, List.append_assoc, List.cons_append, List.nil_append]
    exact comesBind (parenthesesCome (ihl.both ihr result))
  | @construct i fields type any worded each shape ihs =>
    refine restoredOperand (.construct any worded each shape) rfl fun more _ => comesBind (constructComes shape ?_)
    exact fun g inside => (ihs g inside).listed (each g inside) (by simp)

end Operands

theorem lambdaComes {l : Lambda} {p : Param} {ty : Ty} (only : l.params = [p]) (typed : p.ty = ty)
    (legible : l.body.Legible p) :
    Comes scope (lambda ty) (.identifier p.name :: .arrow :: l.body.tokens) (fun l' => ∃ f, l'.shape id = l.shape f) [] := by
  refine becomesIdentifier fun position => becomesExpect ?_
  refine comesThen (comesFresh (P := fun q => q = ⟨q.id, p.name, ty⟩) fun s => rfl) fun q same => ?_
  have known : (scope.push q).param? p.name = some (p.renumber fun _ => q.id) := by
    rw [same, ← typed]
    simp [Scope.push, Scope.param?, Param.renumber]
  have body : Comes (scope.push q) expression (l.body.tokens ++ []) (Like (fun _ => q.id) l.body) [] :=
    (restored legible known).toExpression rfl
  rw [List.append_nil] at body
  refine comesThen (comesWithin body) fun body' like => becomesSame (y := pure) ⟨fun _ => q.id, ?_⟩
  unfold Lambda.shape
  rw [only, List.map_singleton, List.map_singleton, ← like]
  congr 2
  rw [same, ← typed]
  rfl

theorem allMade {text : String} {reader : Reading α} {P : α → Tokens → Prop} {E : Tokens → ParseError → Prop} {a : α}
    {s s' : Supply} (made : (all scope text reader).run s = (.ok a, s'))
    (alike : ∀ ts, Alike scope ts reader reader (fun a _ => P a ts) (E ts)) : ∃ ts, Tokens.read text = .ok ts ∧ P a ts := by
  cases read : Tokens.read text with
  | error cause =>
    unfold all at made
    rw [read] at made
    cases made
  | ok ts =>
    have here := (alike ts).2 s
    rw [allRead read] at made
    rcases run : (reader scope ts).run s with ⟨r, s₁⟩
    rw [run] at here
    cases r with
    | error e =>
      rw [Build.stopThen run] at made
      cases made
    | ok r =>
      rw [Build.runThen run] at made
      cases made
      exact ⟨ts, rfl, here⟩

end Reading

namespace Lambda
open Reading

theorem readMade {types : List ObjectType} {ty : Ty} {text : String} {l : Lambda} {s s' : Supply}
    (read : (Lambda.read types ty text).run s = (.ok l, s')) (plain : l.body.plain = true) :
    ∃ p, l.params = [p] ∧ p.ty = ty ∧ Token.Worded p.name ∧ l.body.Legible p := by
  obtain ⟨ts, tokens, p, position, only, typed, here, wrought⟩ := allMade read fun ts =>
    (lambdaAlike Tokens.leftAll).imp fun _ _ holds => holds.1
  have cuts := Token.readCuts tokens
  have parameter (name : String) (r : Param) (known : (Scope.push ⟨types, []⟩ p).param? name = some r) : r = p :=
    List.mem_singleton.mp (List.mem_of_find?_eq_some known)
  refine ⟨p, only, typed, ?_, wrought.legible cuts parameter plain⟩
  rcases List.mem_append.mp here with inside | last
  · exact Token.spelledWorded (Token.cutsSpelled cuts _ inside).choose_spec
  · cases List.mem_singleton.mp last

theorem textTokens {l : Lambda} {p : Param} (only : l.params = [p]) (named : Token.Worded p.name)
    (legible : l.body.Legible p) :
    ∃ ts, Tokens.read l.text = .ok ts ∧ ts.pending.map (·.1) = .identifier p.name :: .arrow :: l.body.tokens := by
  have arrow : " => ".toList = [' ', '=', '>', ' '] := rfl
  have body := (legible.shows named [] [] Token.fitsNil Token.lexesNil).blank
  rw [List.append_nil, List.append_nil] at body
  have arrowSpelled : Token.Spells ['=', '>'] .arrow := .symbol rfl
  have lexes := (body.token arrowSpelled trivial).blank.token named (Token.fitsMark (by simp)).apart
  obtain ⟨ts, cuts, same⟩ := lexes 0
  refine ⟨ts, ?_, same⟩
  have shown : l.text.toList = p.name.toList ++ ' ' :: (['=', '>'] ++ ' ' :: l.body.text.toList) := by
    rw [Lambda.text, only]
    simp only [Expr.paramsText, String.toList_append, arrow, List.append_assoc, List.cons_append, List.nil_append]
  rw [Tokens.read, shown]
  exact Token.cutsRead cuts

/-- A function that was read, and that is plain, is shown as a text that reads as the function again: with the same nodes and
with other identities at most, those of its parameter all alike. -/
theorem readsPrinted {types types' : List ObjectType} {ty : Ty} {text : String} {l : Lambda} {s s' : Supply}
    (read : (Lambda.read types ty text).run s = (.ok l, s')) (plain : l.body.plain = true) (t : Supply) :
    ∃ l' t' f, (Lambda.read types' ty l.text).run t = (.ok l', t') ∧ l'.shape id = l.shape f := by
  obtain ⟨p, only, typed, named, legible⟩ := readMade read plain
  obtain ⟨ts, tokens, kinds⟩ := textTokens only named legible
  obtain ⟨l', ts', t', ⟨f, same⟩, _, run⟩ := lambdaComes only typed legible ts t kinds
  refine ⟨l', t', f, ?_, same⟩
  rw [Lambda.read, allRead tokens]
  exact Build.runThen run

def layeredText : String := "x => !(-x.n % 3 - 1 < x.s.length() or x.s == 'a\"\\'\\t') and new \x7b a = x, \x7d.a != true"

def layeredPrinted : String :=
  "x => (!((((-x.n % 3) - 1) < x.s.length()) or (x.s == \"a\\\"'\\t\")) and (new \x7ba = x\x7d.a != true))"

/- Operators of every strength, signs, calls, a construction that is read off, and a string with escapes. -/
theorem readsPrintedOfLayered : ∃ l s', (Lambda.read [] .any layeredText).run ⟨0, 0, 0⟩ = (.ok l, s') ∧
    l.body.plain = true ∧ l.text = layeredPrinted ∧
    ∃ l' t' f, (Lambda.read [] .any layeredPrinted).run s' = (.ok l', t') ∧ l'.shape id = l.shape f := by
  have reads : (match ((Lambda.read [] .any layeredText).run ⟨0, 0, 0⟩).1 with
    | .ok l => decide (l.body.plain = true ∧ l.text = layeredPrinted)
    | .error _ => false) = true := by decide +kernel
  rcases run : (Lambda.read [] .any layeredText).run ⟨0, 0, 0⟩ with ⟨r, s'⟩
  rw [run] at reads
  cases r with
  | error e => cases reads
  | ok l =>
    obtain ⟨plain, shown⟩ := of_decide_eq_true reads
    exact ⟨l, s', rfl, plain, shown, shown ▸ readsPrinted run plain s'⟩

end Lambda

end SymbolicQuery
