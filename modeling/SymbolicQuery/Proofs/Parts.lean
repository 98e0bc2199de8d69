import Mathlib.Data.List.Forall2
import SymbolicQuery.Expr

/-! The parts of an expression: what its nodes are, what holds of every node, and when one node is
another with other parts. Induction on the parts covers arguments and bindings at once. -/
namespace SymbolicQuery

def BindingOf.parts {ε : Type} : BindingOf ε → List ε
  | .assign _ value => [value]
  | .collect _ items => items

namespace Expr

def parts : Expr → List Expr
  | .constant .. | .parameter .. | .reference .. => []
  | .access _ object _ | .getter _ object _ => [object]
  | .unary _ _ _ operand | .convert _ _ _ operand => [operand]
  | .binary _ _ _ left right => [left, right]
  | .textCall _ _ receiver args => receiver :: args
  | .stageCall _ _ _ input args => input :: args
  | .construct _ _ _ args => args
  | .populate _ _ base bindings => base :: bindings.flatMap BindingOf.parts
  | .lambda _ _ body => [body]

theorem nodesAllEq (es : List Expr) : nodesAll es = es.flatMap nodes := by
  induction es with
  | nil => rfl
  | cons e rest ih => simp [nodesAll, ih]

theorem nodesBindingsEq (bs : List Binding) :
    nodesBindings bs = (bs.flatMap BindingOf.parts).flatMap nodes := by
  induction bs with
  | nil => rfl
  | cons b rest ih => cases b <;> simp [nodesBindings, nodesAllEq, BindingOf.parts, ih]

theorem nodesParts (e : Expr) : e.nodes = e :: e.parts.flatMap nodes := by
  cases e <;> simp [nodes, parts, nodesAllEq, nodesBindingsEq]

theorem memNodes {n e : Expr} : n ∈ e.nodes ↔ n = e ∨ ∃ c ∈ e.parts, n ∈ c.nodes := by
  rw [nodesParts, List.mem_cons, List.mem_flatMap]

theorem selfNode (e : Expr) : e ∈ e.nodes := memNodes.mpr (.inl rfl)

theorem argumentInside {i : Nat} {t : ObjectType} {ms : List Member} {es : List Expr} {m : Member} {e : Expr}
    (inside : (m, e) ∈ ms.zip es) : e ∈ (Expr.construct i t ms es).parts := (List.of_mem_zip inside).2

theorem bindingInside {i : Nat} {t : ObjectType} {base : Expr} {bs : List Binding} {m : Member} {e : Expr}
    (inside : .assign m e ∈ bs) : e ∈ (Expr.populate i t base bs).parts := by
  have part : e ∈ (BindingOf.assign m e).parts := List.mem_singleton.mpr rfl
  exact List.mem_cons_of_mem _ (List.mem_flatMap.mpr ⟨_, inside, part⟩)

theorem partSize {c e : Expr} (inside : c ∈ e.parts) : sizeOf c < sizeOf e := by
  have binding : ∀ {bs : List Binding}, c ∈ bs.flatMap BindingOf.parts → sizeOf c < sizeOf bs := by
    intro bs member
    obtain ⟨b, hb, hc⟩ := List.mem_flatMap.mp member
    have outer := List.sizeOf_lt_of_mem hb
    cases b with
    | assign m value =>
      cases List.mem_singleton.mp hc
      simp only [BindingOf.assign.sizeOf_spec] at outer
      omega
    | collect m items =>
      have inner : sizeOf c < sizeOf items := List.sizeOf_lt_of_mem hc
      simp only [BindingOf.collect.sizeOf_spec] at outer
      omega
  cases e <;> simp only [parts, List.mem_cons, List.not_mem_nil, or_false] at inside
  case access | getter | unary | convert | lambda => subst inside; simp +arith
  case binary =>
    rw [binary.sizeOf_spec]
    rcases inside with rfl | rfl
    · omega
    · omega
  case textCall | stageCall =>
    rcases inside with rfl | member
    · simp; omega
    · have := List.sizeOf_lt_of_mem member; simp; omega
  case construct => have := List.sizeOf_lt_of_mem inside; simp; omega
  case populate =>
    rcases inside with rfl | member
    · simp; omega
    · have := binding member; simp; omega

theorem partsInduction {P : Expr → Prop} (step : ∀ e, (∀ c ∈ e.parts, P c) → P e) (e : Expr) : P e :=
  step e fun c _ => partsInduction step c
termination_by sizeOf e
decreasing_by exact partSize ‹_›

theorem nodesBelow {c n e : Expr} (outer : n ∈ e.nodes) (inside : c ∈ n.parts) : c ∈ e.nodes := by
  induction e using partsInduction with
  | step e ih =>
    rcases memNodes.mp outer with rfl | ⟨d, member, outer⟩
    · exact memNodes.mpr (.inr ⟨c, inside, selfNode c⟩)
    · exact memNodes.mpr (.inr ⟨d, member, ih d member outer⟩)

def Every (P : Expr → Prop) (e : Expr) : Prop := ∀ n ∈ e.nodes, P n

theorem everyIff {P : Expr → Prop} {e : Expr} : e.Every P ↔ P e ∧ ∀ c ∈ e.parts, c.Every P := by
  constructor
  · intro every
    exact ⟨every e (selfNode e), fun c inside n member => every n (memNodes.mpr (.inr ⟨c, inside, member⟩))⟩
  · intro both n member
    obtain ⟨here, below⟩ := both
    rcases memNodes.mp member with rfl | ⟨c, inside, member⟩
    · exact here
    · exact below c inside n member

theorem Every.here {P : Expr → Prop} {e : Expr} (every : e.Every P) : P e := (everyIff.mp every).1

theorem Every.part {P : Expr → Prop} {e c : Expr} (every : e.Every P) (inside : c ∈ e.parts) :
    c.Every P := (everyIff.mp every).2 c inside

theorem Every.node {P : Expr → Prop} {e n : Expr} (every : e.Every P) (inside : n ∈ e.nodes) :
    n.Every P := by
  induction e using partsInduction with
  | step e ih =>
    rcases memNodes.mp inside with rfl | ⟨c, member, inside⟩
    · exact every
    · exact ih c member (every.part member) inside

/-- The nodes that are met on the way down, which goes on below the nodes that are opened. -/
inductive Shown (opens : Expr → Prop) (e : Expr) : Expr → Prop where
  | root : Shown opens e e
  | part {n c : Expr} (outer : Shown opens e n) (opened : opens n) (inside : c ∈ n.parts) :
      Shown opens e c

theorem Shown.under {opens : Expr → Prop} {e c n : Expr} (opened : opens e) (inside : c ∈ e.parts)
    (shown : Shown opens c n) : Shown opens e n := by
  induction shown with
  | root => exact .part .root opened inside
  | part _ further member ih => exact .part ih further member

theorem Shown.imp {opens further : Expr → Prop} {e n : Expr} (shown : Shown opens e n)
    (weaker : ∀ k, opens k → further k) : Shown further e n := by
  induction shown with
  | root => exact .root
  | part _ opened member ih => exact .part ih (weaker _ opened) member

theorem Shown.node {opens : Expr → Prop} {e n : Expr} (shown : Shown opens e n) : n ∈ e.nodes := by
  induction shown with
  | root => exact selfNode e
  | part _ _ member ih => exact nodesBelow ih member

end Expr

inductive BindingOf.Related (R : Expr → Expr → Prop) : Binding → Binding → Prop where
  | assign {m v w} (value : R v w) : Related R (.assign m v) (.assign m w)
  | collect {m vs ws} (items : List.Forall₂ R vs ws) : Related R (.collect m vs) (.collect m ws)

namespace Expr

/-- Nodes of one kind and content, but for their identities, whose parts are related. -/
inductive Rebuilt (R : Expr → Expr → Prop) : Expr → Expr → Prop where
  | constant {i j t v} : Rebuilt R (.constant i t v) (.constant j t v)
  | parameter {i j p} : Rebuilt R (.parameter i p) (.parameter j p)
  | reference {i j s} : Rebuilt R (.reference i s) (.reference j s)
  | access {i j o o' m} (object : R o o') : Rebuilt R (.access i o m) (.access j o' m)
  | getter {i j o o' m} (object : R o o') : Rebuilt R (.getter i o m) (.getter j o' m)
  | unary {i j t op e e'} (operand : R e e') : Rebuilt R (.unary i t op e) (.unary j t op e')
  | binary {i j t op l l' r r'} (left : R l l') (right : R r r') :
      Rebuilt R (.binary i t op l r) (.binary j t op l' r')
  | textCall {i j m r r' as as'} (receiver : R r r') (args : List.Forall₂ R as as') :
      Rebuilt R (.textCall i m r as) (.textCall j m r' as')
  | stageCall {i j t st e e' as as'} (input : R e e') (args : List.Forall₂ R as as') :
      Rebuilt R (.stageCall i t st e as) (.stageCall j t st e' as')
  | convert {i j t c e e'} (operand : R e e') : Rebuilt R (.convert i t c e) (.convert j t c e')
  | construct {i j t ms as as'} (args : List.Forall₂ R as as') :
      Rebuilt R (.construct i t ms as) (.construct j t ms as')
  | populate {i j t b b' bs bs'} (base : R b b')
      (bindings : List.Forall₂ (BindingOf.Related R) bs bs') :
      Rebuilt R (.populate i t b bs) (.populate j t b' bs')
  | lambda {i j ps e e'} (body : R e e') : Rebuilt R (.lambda i ps e) (.lambda j ps e')

theorem bindingParts {R : Expr → Expr → Prop} {bs bs' : List Binding}
    (related : List.Forall₂ (BindingOf.Related R) bs bs') :
    List.Forall₂ R (bs.flatMap BindingOf.parts) (bs'.flatMap BindingOf.parts) := by
  induction related with
  | nil => exact .nil
  | cons head _ ih =>
    cases head with
    | assign value => exact .cons value ih
    | collect items => exact List.rel_append items ih

theorem Rebuilt.parts {R : Expr → Expr → Prop} {e n : Expr} (same : Rebuilt R e n) :
    List.Forall₂ R e.parts n.parts := by
  cases same with
  | constant | parameter | reference => exact .nil
  | access h | getter h | unary h | convert h | lambda h => exact .cons h .nil
  | binary l r => exact .cons l (.cons r .nil)
  | textCall r as | stageCall r as => exact .cons r as
  | construct as => exact as
  | populate b bs => exact .cons b (bindingParts bs)

theorem bindingsAlong {R S : Expr → Expr → Prop} {bs bs' : List Binding}
    (shape : List.Forall₂ (BindingOf.Related S) bs bs')
    (related : List.Forall₂ R (bs.flatMap BindingOf.parts) (bs'.flatMap BindingOf.parts)) :
    List.Forall₂ (BindingOf.Related R) bs bs' := by
  induction shape with
  | nil => exact .nil
  | @cons b b' bs bs' head _ ih =>
    rw [List.flatMap_cons, List.flatMap_cons] at related
    have same : b.parts.length = b'.parts.length := by
      cases head with
      | assign => rfl
      | collect items => exact items.length_eq
    have here := List.forall₂_take b.parts.length related
    have later := List.forall₂_drop b.parts.length related
    rw [List.take_left, same, List.take_left] at here
    rw [List.drop_left, same, List.drop_left] at later
    refine .cons ?_ (ih later)
    cases head with
    | assign => cases here with
      | cons value => exact .assign value
    | collect => exact .collect here

theorem Rebuilt.along {R S : Expr → Expr → Prop} {e n : Expr} (shape : Rebuilt S e n)
    (related : List.Forall₂ R e.parts n.parts) : Rebuilt R e n := by
  cases shape with
  | constant => exact .constant
  | parameter => exact .parameter
  | reference => exact .reference
  | access => cases related with
    | cons object => exact .access object
  | getter => cases related with
    | cons object => exact .getter object
  | unary => cases related with
    | cons operand => exact .unary operand
  | binary => cases related with
    | cons left rest => cases rest with
      | cons right => exact .binary left right
  | textCall => cases related with
    | cons receiver args => exact .textCall receiver args
  | stageCall => cases related with
    | cons input args => exact .stageCall input args
  | convert => cases related with
    | cons operand => exact .convert operand
  | construct => exact .construct related
  | populate _ bindings => cases related with
    | cons base rest => exact .populate base (bindingsAlong bindings rest)
  | lambda => cases related with
    | cons body => exact .lambda body

theorem rebuiltSelf {R : Expr → Expr → Prop} {e : Expr} (each : ∀ c ∈ e.parts, R c c) : Rebuilt R e e := by
  have lists : ∀ es : List Expr, List.Forall₂ (fun _ _ : Expr => True) es es := fun es =>
    List.forall₂_same.mpr fun _ _ => trivial
  have bindings : ∀ bs : List Binding, List.Forall₂ (BindingOf.Related fun _ _ : Expr => True) bs bs := fun bs =>
    List.forall₂_same.mpr fun b _ => by
      cases b with
      | assign => exact .assign trivial
      | collect => exact .collect (lists _)
  have shape : Rebuilt (fun _ _ => True) e e := by
    cases e with
    | constant => exact .constant
    | parameter => exact .parameter
    | reference => exact .reference
    | access => exact .access trivial
    | getter => exact .getter trivial
    | unary => exact .unary trivial
    | binary => exact .binary trivial trivial
    | textCall => exact .textCall trivial (lists _)
    | stageCall => exact .stageCall trivial (lists _)
    | convert => exact .convert trivial
    | construct => exact .construct (lists _)
    | populate => exact .populate trivial (bindings _)
    | lambda => exact .lambda trivial
  exact shape.along (List.forall₂_same.mpr each)

theorem forallMono {α β : Type} {R S : α → β → Prop} {as : List α} {bs : List β}
    (related : List.Forall₂ R as bs) (stronger : ∀ a ∈ as, ∀ b, R a b → S a b) :
    List.Forall₂ S as bs := by
  induction related with
  | nil => exact .nil
  | cons head _ ih =>
    exact .cons (stronger _ List.mem_cons_self _ head)
      (ih fun a inside => stronger a (List.mem_cons_of_mem _ inside))

theorem bindingMono {R S : Expr → Expr → Prop} {bs bs' : List Binding}
    (related : List.Forall₂ (BindingOf.Related R) bs bs')
    (stronger : ∀ c ∈ bs.flatMap BindingOf.parts, ∀ c', R c c' → S c c') :
    List.Forall₂ (BindingOf.Related S) bs bs' := by
  refine forallMono related fun b inside b' h => ?_
  have within : ∀ c ∈ b.parts, ∀ c', R c c' → S c c' := fun c member =>
    stronger c (List.mem_flatMap.mpr ⟨b, inside, member⟩)
  cases h with
  | assign value => exact .assign (within _ List.mem_cons_self _ value)
  | collect items => exact .collect (forallMono items within)

theorem partFrom {α β : Type} {R : α → β → Prop} {as : List α} {bs : List β} {b : β}
    (related : List.Forall₂ R as bs) (inside : b ∈ bs) : ∃ a ∈ as, R a b := by
  induction related with
  | nil => cases inside
  | cons head _ ih =>
    rcases List.mem_cons.mp inside with rfl | later
    · exact ⟨_, List.mem_cons_self, head⟩
    · obtain ⟨c, member, related⟩ := ih later
      exact ⟨c, List.mem_cons_of_mem _ member, related⟩

theorem Rebuilt.mono {R S : Expr → Expr → Prop} {e n : Expr} (same : Rebuilt R e n)
    (stronger : ∀ c ∈ e.parts, ∀ c', R c c' → S c c') : Rebuilt S e n := by
  cases same with
  | constant => exact .constant
  | parameter => exact .parameter
  | reference => exact .reference
  | access h => exact .access (stronger _ List.mem_cons_self _ h)
  | getter h => exact .getter (stronger _ List.mem_cons_self _ h)
  | unary h => exact .unary (stronger _ List.mem_cons_self _ h)
  | convert h => exact .convert (stronger _ List.mem_cons_self _ h)
  | lambda h => exact .lambda (stronger _ List.mem_cons_self _ h)
  | binary l r =>
    exact .binary (stronger _ List.mem_cons_self _ l)
      (stronger _ (List.mem_cons_of_mem _ List.mem_cons_self) _ r)
  | textCall r as =>
    exact .textCall (stronger _ List.mem_cons_self _ r)
      (forallMono as fun c inside => stronger c (List.mem_cons_of_mem _ inside))
  | stageCall r as =>
    exact .stageCall (stronger _ List.mem_cons_self _ r)
      (forallMono as fun c inside => stronger c (List.mem_cons_of_mem _ inside))
  | construct as => exact .construct (forallMono as stronger)
  | populate b bs =>
    exact .populate (stronger _ List.mem_cons_self _ b)
      (bindingMono bs fun c inside => stronger c (List.mem_cons_of_mem _ inside))

theorem alongThen {α β γ : Type} {R : α → β → Prop} {S : β → γ → Prop} {T : α → γ → Prop} {as : List α}
    {bs : List β} {cs : List γ} (first : List.Forall₂ R as bs) (next : List.Forall₂ S bs cs)
    (both : ∀ a b c, R a b → S b c → T a c) : List.Forall₂ T as cs := by
  induction first generalizing cs with
  | nil =>
    cases next
    exact .nil
  | cons head _ ih =>
    cases next with
    | cons head' rest => exact .cons (both _ _ _ head head') (ih rest)

theorem Rebuilt.join {R S T : Expr → Expr → Prop} {e n n' : Expr} (left : Rebuilt R e n) (right : Rebuilt S e n')
    (both : ∀ c c' c'', R c c' → S c c'' → T c' c'') : Rebuilt T n n' := by
  have lists : ∀ {es es' es''}, List.Forall₂ R es es' → List.Forall₂ S es es'' → List.Forall₂ T es' es'' :=
    fun first next => alongThen (R := flip R) (List.Forall₂.flip first) next fun c' c c'' h h' => both c c' c'' h h'
  cases left with
  | constant => cases right with
    | constant => exact .constant
  | parameter => cases right with
    | parameter => exact .parameter
  | reference => cases right with
    | reference => exact .reference
  | access h => cases right with
    | access h' => exact .access (both _ _ _ h h')
  | getter h => cases right with
    | getter h' => exact .getter (both _ _ _ h h')
  | unary h => cases right with
    | unary h' => exact .unary (both _ _ _ h h')
  | binary l r => cases right with
    | binary l' r' => exact .binary (both _ _ _ l l') (both _ _ _ r r')
  | textCall r as => cases right with
    | textCall r' as' => exact .textCall (both _ _ _ r r') (lists as as')
  | stageCall r as => cases right with
    | stageCall r' as' => exact .stageCall (both _ _ _ r r') (lists as as')
  | convert h => cases right with
    | convert h' => exact .convert (both _ _ _ h h')
  | construct as => cases right with
    | construct as' => exact .construct (lists as as')
  | populate b bs => cases right with
    | populate b' bs' =>
      refine .populate (both _ _ _ b b') ?_
      refine alongThen (R := flip (BindingOf.Related R)) (List.Forall₂.flip bs) bs' fun k' k k'' h h' => ?_
      cases h with
      | assign value => cases h' with
        | assign value' => exact .assign (both _ _ _ value value')
      | collect items => cases h' with
        | collect items' => exact .collect (lists items items')
  | lambda h => cases right with
    | lambda h' => exact .lambda (both _ _ _ h h')

theorem Rebuilt.asSource {R : Expr → Expr → Prop} {e n : Expr} (same : Rebuilt R e n) : n.asSource? = e.asSource? := by
  cases same <;> rfl

theorem Rebuilt.same {e n : Expr} (rebuilt : Rebuilt Eq e n) (id : n.id = e.id) : n = e := by
  have lists : ∀ {es es' : List Expr}, List.Forall₂ Eq es es' → es' = es := fun related =>
    (List.forall₂_eq_eq_eq ▸ related : _ = _).symm
  cases rebuilt with
  | constant | parameter | reference =>
    cases id
    rfl
  | access object | getter object =>
    cases id
    rw [object]
  | unary operand | convert operand =>
    cases id
    rw [operand]
  | binary left right =>
    cases id
    rw [left, right]
  | textCall receiver args | stageCall receiver args =>
    cases id
    rw [receiver, lists args]
  | construct args =>
    cases id
    rw [lists args]
  | @populate _ _ _ _ _ bs bs' base bindings =>
    cases id
    have same : bs = bs' := by
      rw [← List.forall₂_eq_eq_eq]
      refine forallMono bindings fun b _ b' related => ?_
      cases related with
      | assign value => rw [value]
      | collect items => rw [lists items]
    rw [base, same]
  | lambda body =>
    cases id
    rw [body]

theorem Rebuilt.ty {e n : Expr} (same : Rebuilt (fun c c' => c'.ty = c.ty) e n) : n.ty = e.ty := by
  cases same with
  | lambda body => simp only [Expr.ty, body]
  | _ => rfl

end Expr

end SymbolicQuery
