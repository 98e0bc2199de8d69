import SymbolicQuery.Proofs.Result
import SymbolicQuery.Reading

/-! What readers can come to. A property of everything that a reader yields goes through sequencing
and through repetition, where what one step keeps, all steps keep. -/
namespace SymbolicQuery.Reading
open Results

def Gives {α : Type} (scope : Scope) (reader : Reading α) (P : α → Prop) : Prop :=
  ∀ a, yields (reader scope) a → P a

variable {α β : Type} {scope : Scope} {P : α → Prop} {Q : β → Prop}

theorem givesAny {x : Reading α} : Gives scope x fun _ => True := fun _ _ => trivial

theorem givesPure {a : α} (holds : P a) : Gives scope (pure a) P := fun _ h => ofPure h ▸ holds

theorem givesBind {x : Reading α} {f : α → Reading β} (first : Gives scope x P)
    (next : ∀ a, P a → Gives scope (f a) Q) : Gives scope (x >>= f) Q := by
  intro b h
  have h : yields (m := StateT Tokens (ExceptT ParseError Fresh)) (x scope >>= fun a => f a scope) b := h
  obtain ⟨a, head, tail⟩ := ofBind h
  exact next a (first a head) b tail

theorem givesThen {x : Reading α} {f : α → Reading β} (next : ∀ a, Gives scope (f a) Q) :
    Gives scope (x >>= f) Q := givesBind givesAny fun a _ => next a

theorem givesThrow {e : ParseError} : Gives scope (throw e) P := by
  intro a h
  obtain ⟨s, s', h⟩ := h
  have h : yields (m := ExceptT ParseError Fresh) (throw e >>= fun b : α => pure (b, s)) (a, s') := h
  obtain ⟨b, thrown, _⟩ := ofBind h
  exact (notThrow thrown).elim

theorem givesUnexpected {expected : Expected} : Gives scope (unexpected expected) P :=
  givesThen fun _ => givesThrow

theorem givesRead {Q : Scope → Prop} (holds : Q scope) : Gives scope read Q := fun _ h => ofPure h ▸ holds

theorem givesLift {work : Fresh α} (holds : ∀ a, yields work a → P a) : Gives scope (liftM work) P := by
  intro a h
  have h : yields (m := StateT Tokens (ExceptT ParseError Fresh))
    (liftM (liftM work : ExceptT ParseError Fresh α)) a := h
  exact holds a (ofLiftT (ofLift h))

theorem givesBuild {position : Nat} {work : Build α} (holds : ∀ a, yields work a → P a) :
    Gives scope (build position work) P := by
  intro a h
  obtain ⟨s, s', h⟩ := h
  obtain ⟨r, worked, last⟩ := ofBind (m := Fresh) h
  cases r with
  | error e => cases ofPure last
  | ok a' =>
    cases ofPure last
    exact holds _ worked

theorem goGives {step : α → Reading (Option α)}
    (keeps : ∀ a, P a → Gives scope (step a) fun r => ∀ b, r = some b → P b) {n : Nat} {a : α}
    (holds : P a) : Gives scope (iterate.go step n a) P := by
  induction n generalizing a with
  | zero => exact givesPure holds
  | succ n ih =>
    refine givesBind (keeps a holds) fun r kept => ?_
    cases r with
    | none => exact givesPure holds
    | some b => exact ih (kept b rfl)

theorem iterateGives {step : α → Reading (Option α)} {start : α} (holds : P start)
    (keeps : ∀ a, P a → Gives scope (step a) fun r => ∀ b, r = some b → P b) :
    Gives scope (iterate step start) P := givesThen fun _ => goGives keeps holds

theorem itemsGive {close : Token} {item : Reading α} (each : Gives scope item P) :
    Gives scope (itemsUntil close item) fun items => ∀ a ∈ items, P a := by
  unfold itemsUntil
  refine givesBind (P := fun items => ∀ a ∈ items, P a)
    (iterateGives (by simp) fun items known => ?_) fun items known => ?_
  · refine givesThen fun closes => ?_
    split
    · exact givesPure (by simp)
    · refine givesBind each fun a holds => givesThen fun another => ?_
      have grown : Gives scope (pure (some (a :: items))) fun r =>
          ∀ b, r = some b → ∀ c ∈ b, P c := givesPure fun b same => by
        cases same
        exact List.forall_mem_cons.mpr ⟨holds, known⟩
      split
      · exact givesThen fun _ => grown
      · exact grown
  · exact givesThen fun _ => givesPure fun a inside => known a (List.mem_reverse.mp inside)

theorem allGives {text : String} {reader : Reading α} {a : α} (gives : Gives scope reader P)
    (h : yields (all scope text reader) a) : P a := by
  unfold all at h
  split at h
  · exact (notThrow h).elim
  · obtain ⟨⟨b, tokens⟩, read, last⟩ := ofBind h
    cases ofPure last
    exact gives b ⟨_, tokens, read⟩

end SymbolicQuery.Reading
