import SymbolicQuery.Command
import SymbolicQuery.Proofs.Standing

/-! Queries that a text asks for over a document. The root is the document's array, typed after its items;
what is read on it is a chain, and the query of the chain stands. -/
namespace SymbolicQuery
open Results SymbolicQuery.Expr

namespace Query

def HasItems (q : Query) (items : List Value) : Prop :=
  (∀ v ∈ items, q.source.itemType.Holds v) ∧
    ∃ i, q.origin = .constant i (.sequence q.source.itemType) (.array items)

theorem HasItems.start {q : Query} {items : List Value} (has : q.HasItems items) :
    itemsOf q.origin = .ok items := by
  obtain ⟨_, i, origin⟩ := has
  rw [origin]
  rfl

end Query

namespace Command
variable {ε α β : Type}

theorem runBind {x : ExceptT ε Fresh α} {f : α → ExceptT ε Fresh β} {r : Except ε β} {s s' : Supply}
    (h : (x >>= f).run s = (r, s')) : (∃ e, x.run s = (.error e, s') ∧ r = .error e) ∨
      ∃ a s₁, x.run s = (.ok a, s₁) ∧ (f a).run s₁ = (r, s') := by
  have h : ExceptT.bindCont f (x.run s).1 (x.run s).2 = (r, s') := h
  cases run : x.run s with
  | mk first s₁ =>
    rw [run] at h
    cases first with
    | error e =>
      cases h
      exact .inl ⟨e, rfl, rfl⟩
    | ok a => exact .inr ⟨a, s₁, rfl, h⟩

theorem mappedRun {g : ε → CommandError} {work : ExceptT ε Fresh α} {r : Except CommandError α} {s s' : Supply}
    (h : (ExceptT.mk (return (← work.run).mapError g) : Work α).run s = (r, s')) :
    ∃ first, work.run s = (first, s') ∧ first.mapError g = r := by
  have h : ((work.run s).1.mapError g, (work.run s).2) = (r, s') := h
  cases h
  exact ⟨(work.run s).1, rfl, rfl⟩

theorem mappedOk {g : ε → CommandError} {work : ExceptT ε Fresh α} {a : α} {s s' : Supply}
    (h : (ExceptT.mk (return (← work.run).mapError g) : Work α).run s = (.ok a, s')) :
    work.run s = (.ok a, s') := by
  obtain ⟨first, run, same⟩ := mappedRun h
  cases first with
  | error e => cases same
  | ok b =>
    cases same
    exact run

def asked (text input : String) : Work (Expr × Query) := do
  let chain ← parsing (Expr.readChain [] (← root (some input)) text)
  return (chain, ← querying (Query.ofChain chain))

def Asks (text input : String) (s : Supply) (chain : Expr) (q : Query) : Prop :=
  ((asked text input).run s).1 = .ok (chain, q)

variable {text input : String} {js : List Json} {s s' : Supply} {chain start : Expr} {q : Query}

theorem rootRun (document : Json.read? input = some (.array js)) :
    root (some input) = querying (Build.constant (.ofJson (.array js)) (.infer (.ofJson (.array js)))) := by
  unfold root
  simp only [valueOf, document]
  rfl

theorem rootHolds (document : Json.read? input = some (.array js))
    (h : (root (some input)).run s = (.ok start, s')) : ∃ i t, (∀ v ∈ Value.ofJsonItems js, t.Holds v) ∧
      start = .constant i (.sequence t) (.array (Value.ofJsonItems js)) := by
  rw [rootRun document] at h
  have made : yields (Build.constant _ _) start := ⟨s, s', mappedOk h⟩
  obtain ⟨_, ensured, made⟩ := ofBind made
  obtain ⟨i, rfl⟩ := Build.freshYields made
  have held := (Ty.inferFree (.array js)).holds (Build.ofEnsure ensured)
  refine ⟨i, _, ?_, rfl⟩
  cases held with
  | sequence each => exact each

theorem Asks.parts (asks : Asks text input s chain q) : ∃ start s₁ s₂ s₃,
    (root (some input)).run s = (.ok start, s₁) ∧ (Expr.readChain [] start text).run s₁ = (.ok chain, s₂) ∧
      (Query.ofChain chain).run s₂ = (.ok q, s₃) := by
  have h : (asked text input).run s = (.ok (chain, q), ((asked text input).run s).2) := Prod.ext asks rfl
  rcases runBind h with ⟨_, _, none⟩ | ⟨start, s₁, rooted, h⟩
  · cases none
  rcases runBind h with ⟨_, _, none⟩ | ⟨chain, s₂, read, h⟩
  · cases none
  rcases runBind h with ⟨_, _, none⟩ | ⟨q, s₃, built, h⟩
  · cases none
  cases h
  exact ⟨start, s₁, s₂, _, rooted, mappedOk read, mappedOk built⟩

theorem Asks.same {chain' : Expr} {q' : Query} (asks : Asks text input s chain q)
    (asks' : Asks text input s chain' q') : chain = chain' ∧ q = q' := by
  cases asks.symm.trans asks'
  exact ⟨rfl, rfl⟩

theorem asksBuilt (document : Json.read? input = some (.array js)) (asks : Asks text input s chain q) :
    ∃ start item calls t, Query.Built start calls t q item ∧ chain.unchain.2 = calls ∧
      (∀ c ∈ calls, ∀ a ∈ c.args, ∀ n ∈ a.nodes, n ∈ chain.nodes) ∧
      q.HasItems (Value.ofJsonItems js) := by
  obtain ⟨start, s₁, s₂, s₃, rooted, read, built⟩ := asks.parts
  obtain ⟨i, t, holds, rfl⟩ := rootHolds document rooted
  obtain ⟨calls, chained⟩ := readChained ⟨s₁, s₂, read⟩
  obtain ⟨item, built⟩ := Query.ofChainBuilt chained rfl ⟨s₂, s₃, built⟩
  refine ⟨_, item, calls, _, built, by rw [chained.unchain rfl],
    fun c inside a argument n node => chained.nodes inside argument node, ?_⟩
  obtain ⟨origin, itemType⟩ := built.origin
  cases itemType
  exact ⟨holds, i, origin⟩

theorem asksStands (document : Json.read? input = some (.array js)) (asks : Asks text input s chain q)
    (once : chain.Every NamesOnce) :
    ∃ start item t, q.Stands start t item ∧ q.HasItems (Value.ofJsonItems js) := by
  obtain ⟨start, item, calls, t, built, _, within, has⟩ := asksBuilt document asks
  exact ⟨start, item, t, built.stands fun c inside a argument n node =>
    once n (within c inside a argument n node), has⟩

theorem asksMeeting {P : Expr → Query → Prop} (condition : List Json → Expr → Query → Bool)
    (meets : (match Json.read? input, ((asked text input).run s).1 with
      | some (.array js), .ok (chain, q) => condition js chain q
      | _, _ => false) = true)
    (next : ∀ js chain q, Json.read? input = some (.array js) → Asks text input s chain q →
      condition js chain q = true → P chain q) :
    ∃ chain q, Asks text input s chain q ∧ P chain q := by
  split at meets
  · rename_i js chain q document run
    exact ⟨chain, q, run, next js chain q document run meets⟩
  · cases meets

end Command

end SymbolicQuery
