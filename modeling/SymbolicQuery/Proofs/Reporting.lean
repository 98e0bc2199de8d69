import SymbolicQuery.Expr.Chain
import SymbolicQuery.Proofs.Proceeding
import SymbolicQuery.Proofs.Segmenting

/-! What readers make of tokens and what they report. Expressions are made over what the tokens say, and every error tells of
a token that is there. A token is passed before anything else is read, so the end of the text that stands in for a token
that was taken is never seen, and every loop and every nesting takes a token. -/
namespace SymbolicQuery
open Results Tokens

def Token.constant? : Token → Option (Ty × Value)
  | .float x => some (.float, .float x)
  | .integer n => some (.int, .integer n)
  | .string s => some (.string, .string s)
  | .boolean b => some (.bool, .boolean b)
  | .null => some (.any, .null)
  | _ => none

namespace Expr

inductive Wrought (scope : Scope) (whole : Tokens) : Expr → Prop where
  | constant {i position : Nat} {token : Token} {ty : Ty} {value : Value} (here : (token, position) ∈ whole.toList)
      (stands : token.constant? = some (ty, value)) : Wrought scope whole (.constant i ty value)
  | parameter {i position : Nat} {name : String} {p : Param} (here : (.identifier name, position) ∈ whole.toList)
      (known : scope.param? name = some p) : Wrought scope whole (.parameter i p)
  | read {position : Nat} {name : String} {o e : Expr} {m : Member} (object : Wrought scope whole o)
      (here : (.identifier name, position) ∈ whole.toList) (declared : o.ty.member? name = some m)
      (made : yields (Build.read o m) e) : Wrought scope whole e
  | getter {position : Nat} {name : String} {o e : Expr} {m : Member} (object : Wrought scope whole o)
      (here : (.identifier name, position) ∈ whole.toList) (declared : (o.ty.member? name).filter MemberOf.isMethod = some m)
      (made : yields (Build.getter o m) e) : Wrought scope whole e
  | textCall {name : String} {o e : Expr} {method : TextMethod} {args : List Expr} (object : Wrought scope whole o)
      (each : ∀ arg ∈ args, Wrought scope whole arg) (undeclared : (o.ty.member? name).filter MemberOf.isMethod = none)
      (known : TextMethod.ofName? name = some method) (made : yields (Build.textCall o method args) e) :
      Wrought scope whole e
  | unary {op : UnaryOp} {o e : Expr} (operand : Wrought scope whole o) (made : yields (Build.unary op o) e) :
      Wrought scope whole e
  | binary {op : BinaryOp} {l r e : Expr} (left : Wrought scope whole l) (right : Wrought scope whole r)
      (made : yields (Build.binary op l r) e) : Wrought scope whole e
  | convert {checked : Bool} {ty : Ty} {o e : Expr} (operand : Wrought scope whole o)
      (made : yields (Build.convert checked o ty) e) : Wrought scope whole e
  | anonymous {fields : List (String × Expr)} {e : Expr}
      (named : ∀ f ∈ fields, ∃ position, (.identifier f.1, position) ∈ whole.toList)
      (each : ∀ f ∈ fields, Wrought scope whole f.2) (made : yields (Build.anonymous fields) e) : Wrought scope whole e
  | populate {base e : Expr} {bindings : List Binding} (made : yields (Build.populate base bindings) e) :
      Wrought scope whole e

end Expr

namespace Reading
open SymbolicQuery.Expr
variable {scope : Scope} {whole ts : Tokens} {n position : Nat} {x y nested nested' : Reading Expr}
  {operator? : Token → Option BinaryOp}

def Sound (scope : Scope) (whole : Tokens) (n : Nat) (x y : Reading Expr) : Prop :=
  ∀ ts, Left whole n ts → Alike scope ts x y
    (fun e ts' => e.Wrought scope whole ∧ Left whole ts.pending.length ts') whole.Reports

theorem Sound.behind (sound : Sound scope whole n x y) {ts' : Tokens} (left : Left whole (n + 1) ts)
    (later : Left whole ts.pending.length ts') : Alike scope ts' x y
      (fun e ts'' => e.Wrought scope whole ∧ Left whole ts.pending.length ts'') whole.Reports :=
  (sound ts' (later.mono (Nat.le_of_lt_succ left.fewer))).imp fun _ _ ⟨wrought, last⟩ => ⟨wrought, later.past last⟩

theorem operationAlike (ends : operator? .eof = none) (each : Sound scope whole n x y) {e : Expr} (left : Left whole n ts) :
    Alike scope ts (operation operator? x e) (operation operator? y e)
      (Onward whole ts fun e' => e.Wrought scope whole → e'.Wrought scope whole) whole.Reports := by
  have here := left.next
  have solid := left.advance
  unfold operation
  refine alikeSeen ?_
  generalize ts.next = placed at here solid
  obtain ⟨token, position⟩ := placed
  dsimp only
  cases known : operator? token with
  | none => exact alikePure rfl
  | some op =>
    have later := solid (by rintro rfl; rw [ends] at known; cases known)
    refine alikeAdvance (alikeBind (each _ (left.past later)) fun right ts' ⟨wrought, last⟩ => ?_)
    refine alikeBind
      (P := fun e' ts'' => (e.Wrought scope whole → e'.Wrought scope whole) ∧ Left whole ts.pending.length ts'')
      (alikeBuild (fun e' made => ?_) fun _ => placed here) fun e' ts'' ⟨made, last⟩ => alikePure ⟨made, last⟩
    exact ⟨fun wrought' => .binary wrought' wrought made, later.past last⟩

theorem leftGroupedSound (ends : operator? .eof = none) (each : Sound scope whole n x y) :
    Sound scope whole n (leftGrouped operator? x) (leftGrouped operator? y) := by
  intro ts left
  refine alikeBind (each ts left) fun e ts' ⟨wrought, later⟩ => ?_
  exact (iterateAlike wrought (left.past later) fun e ts wrought left =>
    (operationAlike ends each left).onward fun _ known => known wrought).imp
      fun e' ts'' ⟨wrought', last⟩ => ⟨wrought', later.upTo last⟩

theorem singleSound (ends : operator? .eof = none) (each : Sound scope whole n x y) :
    Sound scope whole n (single operator? x) (single operator? y) := by
  intro ts left
  refine alikeBind (each ts left) fun e ts' ⟨wrought, later⟩ =>
    alikeBind (operationAlike ends each (left.past later)) fun r ts'' onward => ?_
  cases r with
  | none =>
    cases onward
    exact alikePure ⟨wrought, later⟩
  | some e' => exact alikePure ⟨onward.1 wrought, later.past onward.2⟩

theorem oneSignAlike {signs : List (UnaryOp × Nat)} (left : Left whole n ts) : Alike scope ts (oneSign signs) (oneSign signs)
    (Onward whole ts fun more => ∃ sign, more = sign :: signs ∧ sign.2 ∈ whole.toList.map (·.2)) whole.Reports := by
  have here := left.next
  have solid := left.advance
  unfold oneSign
  refine alikeSeen ?_
  generalize ts.next = placed at here solid
  obtain ⟨token, position⟩ := placed
  dsimp only
  cases sign : sign? token with
  | none => exact alikePure rfl
  | some op =>
    have later := solid (by rintro rfl; cases sign)
    exact alikeAdvance (alikePure ⟨⟨_, rfl, placed here⟩, later⟩)

theorem signsAlike (left : Left whole n ts) : Alike scope ts signs signs
    (fun signs ts' => (∀ sign ∈ signs, sign.2 ∈ whole.toList.map (·.2)) ∧ Left whole (ts.pending.length + 1) ts')
    whole.Reports := by
  refine iterateAlike (List.forall_mem_nil _) left fun signs ts known left => (oneSignAlike left).onward ?_
  rintro more ⟨sign, rfl, here⟩
  exact List.forall_mem_cons.mpr ⟨here, known⟩

theorem signedSound (each : Sound scope whole n x y) : Sound scope whole n (signed x) (signed y) := by
  intro ts left
  refine alikeBind (signsAlike left) ?_
  rintro signs ts' ⟨known, later⟩
  refine alikeBind (each ts' (left.upTo later)) ?_
  rintro e ts'' ⟨wrought, last⟩
  replace last := last.mono (Nat.le_of_lt_succ later.fewer)
  clear later
  induction signs generalizing e with
  | nil => exact alikePure ⟨wrought, last⟩
  | cons sign rest ih =>
    obtain ⟨here, known⟩ := List.forall_mem_cons.mp known
    rw [List.foldlM_cons]
    exact alikeBind (alikeBuild (P := fun e' ts' => e'.Wrought scope whole ∧ ts'' = ts')
      (fun e' made => ⟨.unary wrought made, rfl⟩) fun _ => here) fun e' _ ⟨holds, same⟩ => same ▸ ih known e' holds

theorem typeAlike (left : Left whole n ts) :
    Alike scope ts type type (fun _ => Left whole ts.pending.length) whole.Reports := by
  refine alikeBind (identifierAlike left) fun (name, position) ts' ⟨here, later⟩ => ?_
  dsimp only
  split
  case h_7 =>
    refine alikeScope ?_
    cases scope.type? name with
    | some type => exact alikePure later
    | none => exact alikeThrow (placed here)
  all_goals exact alikePure later

theorem methodCallAlike {object : Expr} {name : String} {args : List Expr} {P : Expr → Tokens → Prop}
    (each : ∀ arg ∈ args, arg.Wrought scope whole) (here : (.identifier name, position) ∈ whole.toList)
    (holds : ∀ e, (object.Wrought scope whole → e.Wrought scope whole) → P e ts) :
    Alike scope ts (methodCall object name position args) (methodCall object name position args) P whole.Reports := by
  unfold methodCall
  split
  · rename_i member declared
    refine alikeBuild (fun e made => ?_) fun _ => placed here
    obtain ⟨_, _, made⟩ := ofBind made
    exact holds e fun wrought => .getter wrought here declared made
  · rename_i method undeclared known
    exact alikeBuild (fun e made => holds e fun wrought => .textCall wrought each undeclared known made)
      fun _ => placed here
  · exact alikeThrow (placed here)

theorem memberReadAlike {object : Expr} {name : String} {P : Expr → Tokens → Prop}
    (here : (.identifier name, position) ∈ whole.toList)
    (holds : ∀ e, (object.Wrought scope whole → e.Wrought scope whole) → P e ts) :
    Alike scope ts (memberRead object name position) (memberRead object name position) P whole.Reports := by
  refine alikeBuild (fun e made => ?_) fun _ => placed here
  split at made
  · exact holds e fun wrought => .read wrought here (by assumption) made
  · exact (notThrow made).elim

section Items
variable {α : Type} {item item' : Reading α} {close : Token} {P : α → Prop}

theorem oneMoreAlike (each : ∀ ts, Left whole n ts → Alike scope ts item item'
      (fun a ts' => P a ∧ Left whole ts.pending.length ts') whole.Reports) {items : List α} (left : Left whole n ts) :
    Alike scope ts (oneMore close item items) (oneMore close item' items)
      (Onward whole ts fun more => ∃ a, more = a :: items ∧ P a) whole.Reports := by
  refine alikeSees ?_
  split
  · exact alikePure rfl
  · refine alikeBind (each ts left) fun a ts' ⟨holds, later⟩ => alikeSees ?_
    split
    · exact alikeBind (expectAlike later (by decide)) fun _ ts'' last => alikePure ⟨⟨a, rfl, holds⟩, later.past last⟩
    · exact alikePure ⟨⟨a, rfl, holds⟩, later⟩

theorem itemsAlike (solid : close ≠ .eof) (each : ∀ ts, Left whole n ts → Alike scope ts item item'
      (fun a ts' => P a ∧ Left whole ts.pending.length ts') whole.Reports) (left : Left whole n ts) :
    Alike scope ts (itemsUntil close item) (itemsUntil close item')
      (fun items ts' => (∀ a ∈ items, P a) ∧ Left whole ts.pending.length ts') whole.Reports := by
  refine alikeBind (iterateAlike (I := fun items => ∀ a ∈ items, P a) (List.forall_mem_nil _) left
    fun items ts known left => (oneMoreAlike each left).onward ?_)
    fun items ts' ⟨known, later⟩ => alikeBind (expectAlike later solid) fun _ ts'' last => ?_
  · rintro more ⟨a, rfl, holds⟩
    exact List.forall_mem_cons.mpr ⟨holds, known⟩
  exact alikePure ⟨fun a inside => known a (List.mem_reverse.mp inside), last.mono (Nat.le_of_lt_succ later.fewer)⟩

end Items

theorem suffixAlike (inner : Sound scope whole n nested nested') {e : Expr} (left : Left whole (n + 1) ts) :
    Alike scope ts (suffix nested e) (suffix nested' e)
      (Onward whole ts fun e' => e.Wrought scope whole → e'.Wrought scope whole) whole.Reports := by
  have here := left.next
  have solid := left.advance
  unfold suffix
  refine alikeSeen ?_
  generalize ts.next = placed at here solid
  obtain ⟨token, position⟩ := placed
  have one {x y : Reading Expr} {ts' : Tokens} (alike : Alike scope ts' x y
      (fun e' ts'' => (e.Wrought scope whole → e'.Wrought scope whole) ∧ Left whole ts.pending.length ts'') whole.Reports) :
      Alike scope ts' (some <$> x) (some <$> y)
        (Onward whole ts fun e' => e.Wrought scope whole → e'.Wrought scope whole) whole.Reports :=
    alikeBind alike fun e ts'' ⟨known, last⟩ => alikePure ⟨known, last⟩
  cases token with
  | dot =>
    have later := solid (by simp)
    refine alikeAdvance (alikeBind (identifierAlike later) fun (name, position) ts' ⟨here, later'⟩ => ?_)
    replace later' := later.past later'
    refine alikeBind (acceptsAlike later' (by decide)) fun called ts'' passed => ?_
    cases called with
    | true =>
      replace passed := later'.past passed
      refine alikeBind (itemsAlike (by decide) inner (passed.mono (Nat.le_of_lt_succ left.fewer)))
        fun args ts₃ ⟨each, last⟩ => one ?_
      exact methodCallAlike each here fun e holds => ⟨holds, passed.past last⟩
    | false =>
      cases passed
      exact one (memberReadAlike here fun e holds => ⟨holds, later'⟩)
  | asWord =>
    have later := solid (by simp)
    refine alikeAdvance (alikeBind (acceptsAlike later (by decide)) fun checked ts' passed => ?_)
    replace passed : Left whole ts.pending.length ts' := by
      cases checked with
      | true => exact later.past passed
      | false => exact passed ▸ later
    refine alikeBind (typeAlike passed) fun ty ts'' last => one (alikeBuild (fun e made => ?_) fun _ => placed here)
    exact ⟨fun wrought => .convert wrought made, passed.past last⟩
  | _ => exact alikePure rfl

theorem fieldAlike (inner : Sound scope whole n nested nested') (left : Left whole n ts) :
    Alike scope ts (field nested) (field nested')
      (fun f ts' => ((.identifier f.1, f.2.1) ∈ whole.toList ∧ f.2.2.Wrought scope whole) ∧
        Left whole ts.pending.length ts') whole.Reports := by
  refine alikeBind (identifierAlike left) fun (name, position) ts₁ ⟨here, later⟩ =>
    alikeBind (expectAlike later (by decide)) fun _ ts₂ passed => ?_
  replace passed := later.past passed
  exact alikeBind (inner ts₂ (left.past passed)) fun e ts₃ ⟨wrought, last⟩ => alikePure ⟨⟨here, wrought⟩, passed.past last⟩

theorem constructedTypeAlike (left : Left whole n ts) : Alike scope ts constructedType? constructedType?
    (fun _ => Left whole (ts.pending.length + 1)) whole.Reports := by
  unfold constructedType?
  refine alikeSeen ?_
  split
  · refine alikeBind (identifierAlike left) fun (name, position) ts' ⟨here, later⟩ => alikeScope ?_
    cases scope.type? name with
    | some type => exact alikePure (later.mono (Nat.le_succ _))
    | none => exact alikeThrow (placed here)
  · exact alikePure left.same

theorem bindingAlike {type : ObjectType} {f : String × Nat × Expr} (here : (.identifier f.1, f.2.1) ∈ whole.toList) :
    Alike scope ts (binding type f) (binding type f) (fun _ ts' => True ∧ ts' = ts) whole.Reports := by
  obtain ⟨name, position, value⟩ := f
  unfold binding
  dsimp only
  cases type.member? name with
  | some member => exact alikePure ⟨trivial, rfl⟩
  | none => exact alikeThrow (placed here)

theorem constructionAlike (inner : Sound scope whole n nested nested') (left : Left whole n ts)
    (here : position ∈ whole.toList.map (·.2)) :
    Alike scope ts (construction position nested) (construction position nested')
      (fun e ts' => e.Wrought scope whole ∧ Left whole ts.pending.length ts') whole.Reports := by
  refine alikeBind (constructedTypeAlike left) fun type? ts₁ named =>
    alikeBind (expectAlike named (by decide)) fun _ ts₂ passed => ?_
  replace passed := passed.mono (Nat.le_of_lt_succ named.fewer)
  refine alikeBind (itemsAlike (by decide) (fun _ => fieldAlike inner) (left.past passed)) fun fields ts₃ ⟨each, last⟩ => ?_
  replace last := passed.past last
  cases type? with
  | none =>
    refine alikeBuild (fun e made => ⟨.anonymous ?_ ?_ (ofLiftT made), last⟩) fun _ => here
    · rw [List.forall_mem_map]
      exact fun f inside => ⟨_, (each f inside).1⟩
    · rw [List.forall_mem_map]
      exact fun f inside => (each f inside).2
  | some type =>
    refine alikeBind (alikeBuild (P := fun _ ts' => ts₃ = ts') (fun _ _ => rfl) fun _ => here) fun base _ same => ?_
    subst same
    refine alikeBind (alikeMap each fun f known => bindingAlike known.1) fun bindings ts₄ ⟨_, same⟩ => ?_
    subst same
    exact alikeBuild (fun e made => ⟨.populate made, last⟩) fun _ => here

theorem literalAlike {token : Token} {node : Fresh Expr} (left : Left whole ts.pending.length ts.advance)
    (here : position ∈ whole.toList.map (·.2)) (holds : ∀ e, yields node e → e.Wrought scope whole) :
    Alike scope (ts.replace token) (literal node position) (literal node position)
      (fun e ts' => e.Wrought scope whole ∧ Left whole ts.pending.length ts') whole.Reports := by
  refine alikeAdvance ?_
  rw [replaceAdvance]
  exact alikeBuild (fun e made => ⟨holds e (ofLiftT made), left⟩) fun _ => here

theorem operandSound (inner : Sound scope whole n nested nested') :
    Sound scope whole (n + 1) (operand nested) (operand nested') := by
  intro ts left
  have here := left.next
  have solid := left.advance
  have back : (ts.replace .eof).replace ts.next.1 = ts := replaceBack
  unfold operand
  refine alikeTake ?_
  generalize ts.next = next at here solid back
  obtain ⟨token, position⟩ := next
  have literally {ty : Ty} {value : Value} (stands : token.constant? = some (ty, value))
      (node : Nat → Expr) (same : ∀ i, node i = .constant i ty value) (e : Expr)
      (made : yields (m := Fresh) (return node (← freshNode)) e) : e.Wrought scope whole := by
    obtain ⟨i, _, last⟩ := ofBind made
    cases ofPure last
    rw [same]
    exact .constant here stands
  cases token with
  | float x | integer n | string s | boolean b | null =>
    exact literalAlike (solid (by simp)) (placed here) (literally rfl _ fun _ => rfl)
  | identifier name =>
    refine alikeScope ?_
    cases known : scope.param? name with
    | none => exact alikeThrow (placed here)
    | some p =>
      refine literalAlike (solid (by simp)) (placed here) fun e made => ?_
      obtain ⟨i, _, last⟩ := ofBind made
      cases ofPure last
      exact .parameter here known
  | openParen =>
    have later := solid (by simp)
    refine alikeAdvance ?_
    rw [replaceAdvance]
    refine alikeBind (inner.behind left later) fun e ts' ⟨wrought, last⟩ => ?_
    exact alikeBind (expectAlike last (by decide)) fun _ ts'' passed => alikePure ⟨wrought, last.past passed⟩
  | newWord =>
    have later := solid (by simp)
    refine alikeAdvance ?_
    rw [replaceAdvance]
    exact (constructionAlike inner (later.mono (Nat.le_of_lt_succ left.fewer)) (placed here)).imp
      fun e ts' ⟨wrought, last⟩ => ⟨wrought, later.past last⟩
  | _ =>
    -- the token goes back before it is told, as the error is at its place
    refine alikePutBack ?_
    rw [back]
    exact alikeUnexpected left

theorem suffixedSound (inner : Sound scope whole n nested nested') :
    Sound scope whole (n + 1) (suffixed nested) (suffixed nested') := by
  intro ts left
  refine alikeBind (operandSound inner ts left) fun e ts' ⟨wrought, later⟩ => ?_
  exact (iterateAlike wrought (left.past later) fun e ts wrought left =>
    (suffixAlike inner left).onward fun _ known => known wrought).imp
      fun e' ts'' ⟨wrought', last⟩ => ⟨wrought', later.upTo last⟩

theorem productSound (inner : Sound scope whole n nested nested') :
    Sound scope whole (n + 1) (product nested) (product nested') := leftGroupedSound rfl (signedSound (suffixedSound inner))

theorem sumSound (inner : Sound scope whole n nested nested') : Sound scope whole (n + 1) (sum nested) (sum nested') :=
  leftGroupedSound rfl (productSound inner)

theorem comparisonSound (inner : Sound scope whole n nested nested') :
    Sound scope whole (n + 1) (comparison nested) (comparison nested') := singleSound rfl (sumSound inner)

theorem conjunctionSound (inner : Sound scope whole n nested nested') :
    Sound scope whole (n + 1) (conjunction nested) (conjunction nested') := leftGroupedSound rfl (comparisonSound inner)

theorem expressionOverSound (inner : Sound scope whole n nested nested') :
    Sound scope whole (n + 1) (expressionOver nested) (expressionOver nested') :=
  leftGroupedSound rfl (conjunctionSound inner)

theorem expressionToSound {d d' : Nat} (enough : n ≤ d) (enough' : n ≤ d') :
    Sound scope whole n (expressionTo d) (expressionTo d') := by
  induction n generalizing d d' with
  | zero => exact fun ts left => absurd left.fewer (Nat.not_lt_zero _)
  | succ n ih =>
    obtain ⟨d, rfl⟩ : ∃ e, d = e + 1 := ⟨d - 1, by omega⟩
    obtain ⟨d', rfl⟩ : ∃ e, d' = e + 1 := ⟨d' - 1, by omega⟩
    exact expressionOverSound (ih (by omega) (by omega))

theorem expressionDeep : expression scope ts = expressionTo (ts.pending.length + 1) scope ts := rfl

theorem expressionToAlike {d : Nat} (enough : n ≤ d) : Sound scope whole n (expressionTo d) expression := by
  intro ts left
  have sound : Sound scope whole (ts.pending.length + 1) (expressionTo d) (expressionTo (ts.pending.length + 1)) :=
    expressionToSound (left.fewer.trans_le enough) (Nat.le_refl _)
  unfold Alike
  rw [expressionDeep]
  exact sound ts left.same

theorem expressionSound : Sound scope whole n expression expression := fun ts left =>
  (expressionToAlike (Nat.le_refl _) ts left).right

theorem expressionOverItself : expression = expressionOver expression := by
  funext scope ts
  rw [expressionDeep]
  exact (expressionOverSound (expressionToAlike (Nat.le_refl _)) ts leftAll).1

theorem lambdaAlike {ty : Ty} (left : Left whole n ts) :
    Alike scope ts (lambda ty) (lambda ty) (fun l ts' =>
      (∃ p position, l.params = [p] ∧ p.ty = ty ∧ (.identifier p.name, position) ∈ whole.toList ∧
        l.body.Wrought (scope.push p) whole) ∧ Left whole ts.pending.length ts') whole.Reports := by
  refine alikeBind (identifierAlike left) fun (name, position) ts₁ ⟨here, later⟩ =>
    alikeBind (expectAlike later (by decide)) fun _ ts₂ passed => ?_
  refine alikeBind (P := fun p ts' => (p.name = name ∧ p.ty = ty) ∧ ts₂ = ts') (alikeFresh fun p made => ?_) ?_
  · obtain ⟨i, _, last⟩ := ofBind made
    cases ofPure last
    exact ⟨⟨rfl, rfl⟩, rfl⟩
  · rintro p _ ⟨⟨rfl, rfl⟩, rfl⟩
    refine alikeBind (alikeWithin (expressionSound ts₂ (later.past passed))) fun body ts₃ ⟨wrought, last⟩ => ?_
    exact alikePure ⟨⟨p, position, rfl, rfl, here, wrought⟩, later.past (passed.past last)⟩

theorem callArgumentsAlike {input item : Ty} {stage : Stage} (left : Left whole n ts) :
    Alike scope ts (callArguments input item stage) (callArguments input item stage)
      (fun _ => Left whole (ts.pending.length + 1)) whole.Reports := by
  have made {l : Lambda} {ts' : Tokens} {β : Type} {f : Expr → Reading β} {P : β → Tokens → Prop}
      (next : ∀ e, Alike scope ts' (f e) (f e) P whole.Reports) :
      Alike scope ts' (liftM l.toExpr >>= f) (liftM l.toExpr >>= f) P whole.Reports :=
    alikeBind (alikeFresh (P := fun _ ts'' => ts' = ts'') fun _ _ => rfl) fun e _ same => same ▸ next e
  cases stage with
  | filter | sort | sortDescending | project =>
    exact alikeBind (lambdaAlike left) fun l ts' ⟨_, later⟩ => made fun e => alikePure (later.mono (Nat.le_succ _))
  | group =>
    refine alikeBind (lambdaAlike left) fun key ts₁ ⟨_, later⟩ => alikeBind (acceptsAlike later (by decide)) ?_
    intro another ts₂ passed
    cases another with
    | true =>
      refine alikeBind (lambdaAlike passed) fun element ts₃ ⟨_, last⟩ => made fun e => made fun e' => ?_
      exact alikePure ((later.past (passed.past last)).mono (Nat.le_succ _))
    | false => exact made fun e => alikePure (passed ▸ later.mono (Nat.le_succ _))
  | take | skip =>
    exact alikeBind (expressionSound ts left) fun e ts' ⟨_, later⟩ => alikePure (later.mono (Nat.le_succ _))
  | distinct | count | first | firstOrNull => exact alikePure left.same

theorem callAlike {input : Expr} (left : Left whole n ts) :
    Alike scope ts (call input) (call input) (fun _ => Left whole ts.pending.length) whole.Reports := by
  refine alikeBind (identifierAlike left) fun (name, position) ts₁ ⟨here, later⟩ => ?_
  dsimp only
  cases Stage.ofName? name with
  | none => exact alikeThrow (placed here)
  | some stage =>
    refine alikeBind (expectAlike later (by decide)) fun _ ts₂ passed => ?_
    refine alikeBind (callArgumentsAlike passed) fun (args, ty) ts₃ last => ?_
    refine alikeBind (expectAlike last (by decide)) fun _ ts₄ closed => ?_
    replace closed := closed.mono (Nat.le_of_lt_succ last.fewer)
    exact alikeBuild (fun e made => later.past (passed.past closed)) fun _ => placed here

theorem linkAlike {e : Expr} (left : Left whole n ts) :
    Alike scope ts (link e) (link e) (Onward whole ts fun _ => True) whole.Reports := by
  refine alikeBind (acceptsAlike left (by decide)) fun dotted ts' passed => ?_
  cases dotted with
  | true => exact alikeBind (callAlike passed) fun e' ts'' last => alikePure ⟨trivial, passed.past last⟩
  | false => exact alikePure passed

theorem chainAlike {root : Expr} (left : Left whole n ts) :
    Alike scope ts (chain root) (chain root) (fun _ _ => True) whole.Reports := by
  refine alikeBind (expectAlike left (by decide)) fun _ ts₁ passed => ?_
  refine alikeBind (iterateAlike trivial passed fun e ts _ => linkAlike) fun e ts₂ ⟨_, last⟩ => ?_
  exact alikeBind (expectEndAlike last) fun _ _ _ => alikePure trivial

theorem onlyExpressionAlike (left : Left whole n ts) :
    Alike scope ts onlyExpression onlyExpression (fun _ _ => True) whole.Reports :=
  alikeBind (expressionSound ts left) fun _ _ ⟨_, later⟩ => alikeBind (expectEndAlike later) fun _ _ _ => alikePure trivial

/-- No bound on nesting or on how often a loop goes round is ever reached: expressions are read as if there were none. -/
structure Boundless : Prop where
  nesting : expression = expressionOver expression
  signs : Unrolls oneSign
  suffixes : Unrolls (suffix expression)
  products : Unrolls (operation productOperator? (signed (suffixed expression)))
  sums : Unrolls (operation sumOperator? (product expression))
  conjunctions : Unrolls (operation andOperator? (comparison expression))
  disjunctions : Unrolls (operation orOperator? (conjunction expression))
  arguments : Unrolls (oneMore .closeParen expression)
  fields : Unrolls (oneMore .closeBrace (field expression))
  calls : Unrolls link

theorem operationUnrolls (ends : operator? .eof = none) (each : ∀ scope whole n, Sound scope whole (n + 1) x x) :
    Unrolls (operation operator? x) :=
  unrolls fun scope whole n _ _ left => operationAlike ends (each scope whole n) (left.mono (Nat.le_succ _))

theorem boundless : Boundless where
  nesting := expressionOverItself
  signs := unrolls fun _ _ _ _ _ left => oneSignAlike left
  suffixes := unrolls fun _ _ _ _ _ left => suffixAlike expressionSound (left.mono (Nat.le_succ _))
  products := operationUnrolls rfl fun _ _ _ => signedSound (suffixedSound expressionSound)
  sums := operationUnrolls rfl fun _ _ _ => productSound expressionSound
  conjunctions := operationUnrolls rfl fun _ _ _ => comparisonSound expressionSound
  disjunctions := operationUnrolls rfl fun _ _ _ => conjunctionSound expressionSound
  arguments := unrolls fun _ _ _ _ _ left => oneMoreAlike expressionSound left
  fields := unrolls fun _ _ _ _ _ left => oneMoreAlike (fun _ => fieldAlike expressionSound) left
  calls := unrolls fun _ _ _ _ _ left => linkAlike left

/-- Work on a text comes to a result, or to an error that tells of its tokens and finds the end of the text only there. -/
def Concludes {α : Type} (text : String) (ts : Tokens) (work : ExceptT ParseError Fresh α) : Prop :=
  ∀ s, (∃ a s', work.run s = (.ok a, s')) ∨ ∃ e s', work.run s = (.error e, s') ∧ ts.Reports e ∧
    ∀ expected position, e = .unexpected expected .eof position → position = text.length

theorem endPlace {text : String} (read : Tokens.read text = .ok ts) (here : (.eof, position) ∈ ts.toList) :
    position = text.length := by
  have cuts := Token.readCuts read
  rcases List.mem_append.mp here with inside | last
  · exact absurd rfl (Token.cutsSolid cuts _ inside)
  · cases List.mem_singleton.mp last
    rw [Token.cutsEnd cuts, Nat.zero_add, String.length_toList]

theorem allRead {α : Type} {text : String} {reader : Reading α} (read : Tokens.read text = .ok ts) :
    all scope text reader = reader scope ts >>= fun r => pure r.1 := by
  unfold all
  rw [read]
  rfl

theorem allConcludes {α : Type} {text : String} {reader : Reading α} {P : α → Tokens → Prop}
    (read : Tokens.read text = .ok ts) (alike : Alike scope ts reader reader P ts.Reports) :
    Concludes text ts (all scope text reader) := by
  intro s
  have here := alike.2 s
  rw [allRead read]
  rcases run : (reader scope ts).run s with ⟨r, s'⟩
  rw [run] at here
  cases r with
  | ok r => exact .inl ⟨r.1, s', Build.runThen run⟩
  | error e =>
    refine .inr ⟨e, s', Build.stopThen run, here, ?_⟩
    rintro expected position rfl
    exact endPlace read here

/-- A text that has tokens is read to a result or to an error that tells of the tokens, as an expression, as a chain and as a
function, and no bound decides what it is read to. -/
theorem readersConclude {text : String} {ts : Tokens} (read : Tokens.read text = .ok ts) (types : List ObjectType) :
    Boundless ∧ Concludes text ts (Expr.read types text) ∧ (∀ root, Concludes text ts (Expr.readChain types root text)) ∧
    ∀ ty, Concludes text ts (Lambda.read types ty text) :=
  ⟨boundless, allConcludes read (onlyExpressionAlike leftAll), fun _ => allConcludes read (chainAlike leftAll),
    fun _ => allConcludes read (lambdaAlike leftAll)⟩

def strayText : String := "$.where(x => -x x).count()"

/- The error behind an operand that was taken is told of the token behind it. -/
theorem readersConcludeOfStray : ∃ ts root e, Tokens.read strayText = .ok ts ∧
    e = .unexpected (.token .closeParen) (.identifier "x") 16 ∧
    (∃ s s', (Expr.readChain [] root strayText).run s = (.error e, s')) ∧ ts.Reports e := by
  obtain ⟨ts, read, _⟩ := Tokens.readMeeting strayText
    [(.dollar, 0), (.dot, 1), (.identifier "where", 2), (.openParen, 7), (.identifier "x", 8), (.arrow, 10), (.minus, 13),
      (.identifier "x", 14), (.identifier "x", 16), (.closeParen, 17), (.dot, 18), (.identifier "count", 19),
      (.openParen, 24), (.closeParen, 25), (.eof, 26)] (by decide +kernel)
  have stops : (match ((Expr.readChain [] (.constant 0 (.sequence .int) (.array [])) strayText).run ⟨1, 0, 0⟩).1 with
    | .ok _ => false
    | .error e => decide (e = .unexpected (.token .closeParen) (.identifier "x") 16)) = true := by decide +kernel
  rcases (readersConclude read []).2.2.1 (.constant 0 (.sequence .int) (.array [])) ⟨1, 0, 0⟩ with
    ⟨a, s', run⟩ | ⟨e, s', run, reports, _⟩
  · rw [run] at stops
    cases stops
  · rw [run] at stops
    exact ⟨ts, _, e, read, of_decide_eq_true stops, ⟨_, s', run⟩, reports⟩

end Reading

end SymbolicQuery
