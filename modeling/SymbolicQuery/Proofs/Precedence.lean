import SymbolicQuery.Proofs.Ranking

/-! The order of items by several keys. The first keys that are not equal decide, in the direction of their function, and
items whose deciding keys do not compare clash. Without floating-point numbers among the keys, what two items are to a
third tells what they are to each other. -/
namespace SymbolicQuery.Query

variable {functions : List KeyFunction} {f : KeyFunction} {key : KeyFunction → Value → Value} {a b c x v : Value}

def tied (functions : List KeyFunction) (key : KeyFunction → Value → Value) (a b : Value) : Bool :=
  functions.all fun f => (key f a).compare (key f b) == some .eq

/-- Whether the keys of two items are equal up to a function whose keys compare in a given way. -/
def Differ (functions : List KeyFunction) (key : KeyFunction → Value → Value) (result : KeyFunction → Option Ordering)
    (a b : Value) : Prop :=
  ∃ before f after, functions = before ++ f :: after ∧ tied before key a b = true ∧
    (key f a).compare (key f b) = result f

def Clash (functions : List KeyFunction) (key : KeyFunction → Value → Value) : Value → Value → Prop :=
  Differ functions key fun _ => none

def Ahead (functions : List KeyFunction) (key : KeyFunction → Value → Value) : Value → Value → Prop :=
  Differ functions key fun f => some (if f.descending then .gt else .lt)

def InOrder (functions : List KeyFunction) (key : KeyFunction → Value → Value) (a b : Value) : Prop :=
  tied functions key a b = true ∨ Ahead functions key a b

def directed (f : KeyFunction) (key : KeyFunction → Value → Value) (a b : Value) : Option Ordering :=
  if f.descending then (key f b).compare (key f a) else (key f a).compare (key f b)

def order (functions : List KeyFunction) (key : KeyFunction → Value → Value) (a b : Value) : Except QueryError Ordering :=
  compareKeys functions (functions.map (key · a)) (functions.map (key · b))

theorem directedEqual : directed f key a b = some .eq ↔ (key f a).compare (key f b) = some .eq := by
  unfold directed
  cases f.descending
  · rfl
  · rw [if_pos rfl, Value.compareSwap]
    cases (key f a).compare (key f b) with
    | none => simp
    | some o => cases o <;> simp

theorem directedLess :
    directed f key a b = some .lt ↔ (key f a).compare (key f b) = some (if f.descending then .gt else .lt) := by
  unfold directed
  cases f.descending
  · rfl
  · rw [if_pos rfl, if_pos rfl, Value.compareSwap]
    cases (key f a).compare (key f b) with
    | none => simp
    | some o => cases o <;> simp

theorem directedNone : directed f key a b = none ↔ (key f a).compare (key f b) = none := by
  unfold directed
  cases f.descending
  · rfl
  · rw [if_pos rfl, Value.compareSwap, Option.map_eq_none_iff]

theorem directedSwap : directed f key b a = (directed f key a b).map Ordering.swap := by
  unfold directed
  split <;> rw [Value.compareSwap]

theorem orderCons : order (f :: functions) key a b =
    match directed f key a b with
    | some .eq => order functions key a b
    | some o => .ok o
    | none => .error (.failure (.unordered f.function.lambda.text (key f a).text (key f b).text)) := by
  have shown : order (f :: functions) key a b =
      match (key f a).compare (key f b) with
      | some .eq => order functions key a b
      | some o => .ok (if f.descending then o.swap else o)
      | none => .error (.failure (.unordered f.function.lambda.text (key f a).text (key f b).text)) := rfl
  rw [shown]
  unfold directed
  cases f.descending
  · cases (key f a).compare (key f b) with
    | none => rfl
    | some o => cases o <;> rfl
  · rw [Value.compareSwap (key f a)]
    cases (key f a).compare (key f b) with
    | none => rfl
    | some o => cases o <;> rfl

theorem tiedCons : tied (f :: functions) key a b = true ↔
    (key f a).compare (key f b) = some .eq ∧ tied functions key a b = true := by
  simp [tied]

theorem differCons {result : KeyFunction → Option Ordering} : Differ (f :: functions) key result a b ↔
    (key f a).compare (key f b) = result f ∨
      (key f a).compare (key f b) = some .eq ∧ Differ functions key result a b := by
  constructor
  · rintro ⟨before, g, after, parts, ties, apart⟩
    cases before with
    | nil =>
      cases parts
      exact .inl apart
    | cons h before =>
      cases parts
      obtain ⟨first, ties⟩ := tiedCons.mp ties
      exact .inr ⟨first, before, g, after, rfl, ties, apart⟩
  · rintro (apart | ⟨first, before, g, after, rfl, ties, apart⟩)
    · exact ⟨[], f, functions, rfl, rfl, apart⟩
    · exact ⟨f :: before, g, after, rfl, tiedCons.mpr ⟨first, ties⟩, apart⟩

theorem differNil {result : KeyFunction → Option Ordering} : ¬ Differ [] key result a b := by
  rintro ⟨before, g, after, parts, -⟩
  cases before <;> cases parts

theorem orderTied : order functions key a b = .ok .eq ↔ tied functions key a b = true := by
  induction functions with
  | nil => exact iff_of_true rfl rfl
  | cons f functions ih =>
    rw [orderCons, tiedCons, ← ih, ← directedEqual]
    cases directed f key a b with
    | none => simp
    | some o => cases o <;> simp

theorem orderAhead : order functions key a b = .ok .lt ↔ Ahead functions key a b := by
  induction functions with
  | nil => exact iff_of_false (fun same => by cases same) differNil
  | cons f functions ih =>
    rw [Ahead] at ih ⊢
    rw [orderCons, differCons, ← ih, ← directedEqual, ← directedLess]
    cases directed f key a b with
    | none => simp
    | some o => cases o <;> simp

theorem orderClash : (∃ e, order functions key a b = .error e) ↔ Clash functions key a b := by
  induction functions with
  | nil => exact iff_of_false (fun ⟨e, same⟩ => by cases same) differNil
  | cons f functions ih =>
    rw [Clash] at ih ⊢
    rw [orderCons, differCons, ← ih, ← directedEqual, ← directedNone]
    cases directed f key a b with
    | none => simp
    | some o => cases o <;> simp

/-- An error that names a function and two keys that do not compare, those of two items in the order compared. -/
def Unordered (functions : List KeyFunction) (key : KeyFunction → Value → Value) (items : List Value)
    (e : QueryError) : Prop :=
  ∃ f ∈ functions, ∃ a ∈ items, ∃ b ∈ items, (key f a).compare (key f b) = none ∧
    e = .failure (.unordered f.function.lambda.text (key f a).text (key f b).text)

theorem orderUnordered {e : QueryError} {items : List Value} (failed : order functions key a b = .error e)
    (inside : a ∈ items) (inside' : b ∈ items) : Unordered functions key items e := by
  induction functions with
  | nil => cases failed
  | cons f functions ih =>
    rw [orderCons] at failed
    split at failed
    · obtain ⟨g, within, rest⟩ := ih failed
      exact ⟨g, List.mem_cons_of_mem f within, rest⟩
    · cases failed
    · rename_i none
      cases failed
      exact ⟨f, List.mem_cons_self, a, inside, b, inside', directedNone.mp none, rfl⟩

theorem orderInOrder : (∃ o, order functions key a b = .ok o ∧ o.isLE = true) ↔ InOrder functions key a b := by
  rw [InOrder, ← orderTied, ← orderAhead]
  constructor
  · rintro ⟨o, known, le⟩
    cases o with
    | lt => exact .inr known
    | eq => exact .inl known
    | gt => cases le
  · rintro (known | known)
    · exact ⟨_, known, rfl⟩
    · exact ⟨_, known, rfl⟩

theorem orderSwap {o : Ordering} (known : order functions key a b = .ok o) : order functions key b a = .ok o.swap := by
  induction functions with
  | nil =>
    cases known
    rfl
  | cons f functions ih =>
    rw [orderCons] at known ⊢
    rw [directedSwap]
    cases first : directed f key a b with
    | none =>
      rw [first] at known
      cases known
    | some p =>
      rw [first] at known
      cases p with
      | eq => exact ih known
      | lt =>
        cases known
        rfl
      | gt =>
        cases known
        rfl

def Exact (functions : List KeyFunction) (key : KeyFunction → Value → Value) (v : Value) : Prop :=
  ∀ f ∈ functions, ∀ x, key f v ≠ .float x

theorem directedThen {o p : Ordering} (exact : Exact [f] key a) (exact' : Exact [f] key b) (exact'' : Exact [f] key c)
    (first : directed f key a b = some o) (second : directed f key b c = some p) (le : o.isLE = true)
    (le' : p.isLE = true) : directed f key a c = some (o.then p) := by
  have here : f ∈ [f] := List.mem_singleton_self f
  unfold directed at *
  split at first
  · rw [if_pos ‹_›] at second ⊢
    have turned := Value.compareThen (exact'' f here) (exact' f here) (exact f here) second first le' le
    rw [turned]
    revert le le'
    cases o <;> cases p <;> decide
  · rw [if_neg ‹_›] at second ⊢
    exact Value.compareThen (exact f here) (exact' f here) (exact'' f here) first second le le'

theorem Exact.head (exact : Exact (f :: functions) key a) : Exact [f] key a := fun g inside =>
  exact g (List.mem_singleton.mp inside ▸ List.mem_cons_self)

theorem Exact.tail (exact : Exact (f :: functions) key a) : Exact functions key a := fun g inside =>
  exact g (List.mem_cons_of_mem f inside)

theorem orderThen {o p : Ordering} (exact : Exact functions key a) (exact' : Exact functions key b)
    (exact'' : Exact functions key c) (first : order functions key a b = .ok o) (second : order functions key b c = .ok p)
    (le : o.isLE = true) (le' : p.isLE = true) : order functions key a c = .ok (o.then p) := by
  induction functions with
  | nil =>
    cases first
    cases second
    rfl
  | cons f functions ih =>
    rw [orderCons] at first second
    have combined {q r : Ordering} (left : directed f key a b = some q) (right : directed f key b c = some r) :=
      directedThen exact.head exact'.head exact''.head left right
    cases left : directed f key a b with
    | none =>
      rw [left] at first
      cases first
    | some q =>
      cases right : directed f key b c with
      | none =>
        rw [right] at second
        cases second
      | some r =>
        rw [left] at first
        rw [right] at second
        have outer := combined left right
        rw [orderCons]
        cases q <;> cases r
        -- The first function that tells the items apart decides, be it the first pair or the second that it tells apart.
        case eq.eq =>
          rw [outer rfl rfl]
          exact ih exact.tail exact'.tail exact''.tail first second
        case eq.lt =>
          rw [outer rfl rfl]
          cases second
          cases o with
          | gt => cases le
          | _ => rfl
        case lt.eq | lt.lt =>
          rw [outer rfl rfl]
          cases first
          rfl
        case gt.lt | gt.eq | gt.gt =>
          cases first
          cases le
        case lt.gt | eq.gt =>
          cases second
          cases le'

theorem tiedSymm (ties : tied functions key a b = true) : tied functions key b a = true :=
  orderTied.mp (orderSwap (orderTied.mpr ties))

theorem tiedTrans (exact : Exact functions key a) (exact' : Exact functions key b) (exact'' : Exact functions key c)
    (first : tied functions key a b = true) (second : tied functions key b c = true) : tied functions key a c = true :=
  orderTied.mp (orderThen exact exact' exact'' (orderTied.mpr first) (orderTied.mpr second) rfl rfl)

theorem inOrderBoth (there : InOrder functions key a b) (back : InOrder functions key b a) :
    tied functions key a b = true := by
  obtain ⟨o, known, le⟩ := orderInOrder.mpr there
  obtain ⟨p, known', le'⟩ := orderInOrder.mpr back
  cases (orderSwap known).symm.trans known'
  cases o with
  | eq => exact orderTied.mp known
  | lt => cases le'
  | gt => cases le

theorem clashSymm (clash : Clash functions key a b) : Clash functions key b a := by
  obtain ⟨e, failed⟩ := orderClash.mpr clash
  cases known : order functions key b a with
  | error e => exact orderClash.mp ⟨e, known⟩
  | ok o => cases failed.symm.trans (orderSwap known)

end SymbolicQuery.Query
