import SymbolicQuery.Proofs.Result

/-! How readers proceed through tokens. From tokens that are left of a list a reader goes on to fewer of them, and its errors
tell of the list. Two readers that do so alike are compared at once, so that a bound on a reader can be seen not to matter. -/
namespace SymbolicQuery
open Results

namespace Tokens
variable {whole ts ts' : Tokens} {token : Token} {m n : Nat}

structure Left (whole : Tokens) (n : Nat) (ts : Tokens) : Prop where
  rest : ts.pending <:+ whole.pending
  finish : ts.finish = whole.finish
  fewer : ts.pending.length < n

theorem leftAll : Left whole (whole.pending.length + 1) whole := ⟨List.suffix_refl _, rfl, Nat.lt_succ_self _⟩

theorem Left.mono (left : Left whole m ts) (le : m ≤ n) : Left whole n ts :=
  ⟨left.rest, left.finish, Nat.lt_of_lt_of_le left.fewer le⟩

theorem Left.past (left : Left whole n ts) (later : Left whole ts.pending.length ts') : Left whole n ts' :=
  later.mono (Nat.le_of_lt left.fewer)

theorem Left.upTo (left : Left whole n ts) (later : Left whole (ts.pending.length + 1) ts') : Left whole n ts' :=
  later.mono left.fewer

theorem Left.same (left : Left whole n ts) : Left whole (ts.pending.length + 1) ts :=
  ⟨left.rest, left.finish, Nat.lt_succ_self _⟩

theorem Left.next (left : Left whole n ts) : ts.next ∈ whole.toList := by
  obtain ⟨pending, finish⟩ := ts
  cases pending with
  | nil =>
    have same := left.finish
    simp [Tokens.next, toList, ← same]
  | cons placed rest => exact List.mem_append_left _ (left.rest.subset List.mem_cons_self)

theorem Left.advance (left : Left whole n ts) (solid : ts.next.1 ≠ .eof) : Left whole ts.pending.length ts.advance := by
  obtain ⟨pending, finish⟩ := ts
  cases pending with
  | nil => exact absurd rfl solid
  | cons placed rest => exact ⟨(List.suffix_cons ..).trans left.rest, left.finish, Nat.lt_succ_self _⟩

theorem replaceAdvance : (ts.replace token).advance = ts.advance := by
  obtain ⟨pending, finish⟩ := ts
  cases pending <;> rfl

theorem replaceBack {other : Token} : (ts.replace other).replace ts.next.1 = ts := by
  obtain ⟨pending, finish⟩ := ts
  cases pending <;> rfl

def Reports (ts : Tokens) : ParseError → Prop
  | .lex _ => False
  | .unexpected _ found position => (found, position) ∈ ts.toList
  | .unknownName _ position | .unknownMethod _ position | .unknownStage _ position | .unknownType _ position
  | .query _ position => position ∈ ts.toList.map (·.2)

theorem placed {position : Nat} (here : (token, position) ∈ ts.toList) : position ∈ ts.toList.map (·.2) :=
  List.mem_map_of_mem (f := (·.2)) here

end Tokens

namespace Reading
open Tokens
variable {α β : Type} {scope : Scope} {ts : Tokens} {x y : Reading α} {f g : α → Reading β} {E : ParseError → Prop}
  {P P' : α → Tokens → Prop} {Q : β → Tokens → Prop}

/-- Two readers do the same on some tokens; what they give and leave, and their errors, are as told. -/
def Alike (scope : Scope) (ts : Tokens) (x y : Reading α) (P : α → Tokens → Prop) (E : ParseError → Prop) : Prop :=
  x scope ts = y scope ts ∧ ∀ s, match ((x scope ts).run s).1 with
    | .ok (a, ts') => P a ts'
    | .error e => E e

theorem alikePure {a : α} (holds : P a ts) : Alike scope ts (pure a) (pure a) P E := ⟨rfl, fun _ => holds⟩

theorem alikeThrow {e : ParseError} (holds : E e) : Alike scope ts (throw e) (throw e) P E := ⟨rfl, fun _ => holds⟩

theorem Alike.imp (alike : Alike scope ts x y P E) (weaker : ∀ a ts', P a ts' → P' a ts') : Alike scope ts x y P' E := by
  refine ⟨alike.1, fun s => ?_⟩
  have here := alike.2 s
  split
  · rename_i a ts' run
    rw [run] at here
    exact weaker a ts' here
  · rename_i e run
    rw [run] at here
    exact here

theorem Alike.right (alike : Alike scope ts x y P E) : Alike scope ts y y P E := ⟨rfl, alike.1 ▸ alike.2⟩

theorem bindRun {s : Supply} : ((x >>= f) scope ts).run s =
    match (x scope ts).run s with
    | (.ok (a, ts'), s') => (f a scope ts').run s'
    | (.error e, s') => (.error e, s') := by
  change (((x scope ts) >>= fun r => f r.1 scope r.2 : ExceptT ParseError Fresh (β × Tokens))).run s = _
  rcases run : (x scope ts).run s with ⟨r, s'⟩
  cases r with
  | error e => exact Build.stopThen run
  | ok r => exact Build.runThen run

theorem alikeBind (first : Alike scope ts x y P E) (next : ∀ a ts', P a ts' → Alike scope ts' (f a) (g a) Q E) :
    Alike scope ts (x >>= f) (y >>= g) Q E := by
  constructor
  · funext s
    change ((x >>= f) scope ts).run s = ((y >>= g) scope ts).run s
    have here := first.2 s
    rw [bindRun, bindRun, ← first.1]
    rcases run : (x scope ts).run s with ⟨r, s'⟩
    rw [run] at here
    cases r with
    | error e => rfl
    | ok r => exact congrFun (next r.1 r.2 here).1 s'
  · intro s
    have here := first.2 s
    rw [bindRun]
    rcases run : (x scope ts).run s with ⟨r, s'⟩
    rw [run] at here
    cases r with
    | error e => exact here
    | ok r => exact (next r.1 r.2 here).2 s'

theorem alikeSeen {f g : Placed → Reading β} (here : Alike scope ts (f ts.next) (g ts.next) Q E) :
    Alike scope ts (next >>= f) (next >>= g) Q E := here

theorem alikeSees {token : Token} {f g : Bool → Reading β}
    (here : Alike scope ts (f (ts.next.1 == token)) (g (ts.next.1 == token)) Q E) :
    Alike scope ts (sees token >>= f) (sees token >>= g) Q E := here

theorem alikeAdvance {f g : Unit → Reading β} (after : Alike scope ts.advance (f ()) (g ()) Q E) :
    Alike scope ts (advance >>= f) (advance >>= g) Q E := after

theorem alikeTake {f g : Placed → Reading β} (after : Alike scope (ts.replace .eof) (f ts.next) (g ts.next) Q E) :
    Alike scope ts (take >>= f) (take >>= g) Q E := after

theorem alikePutBack {token : Token} {f g : Unit → Reading β} (after : Alike scope (ts.replace token) (f ()) (g ()) Q E) :
    Alike scope ts (putBack token >>= f) (putBack token >>= g) Q E := after

theorem alikeScope {f g : Scope → Reading β} (here : Alike scope ts (f scope) (g scope) Q E) :
    Alike scope ts (read >>= f) (read >>= g) Q E := here

theorem alikeWithin {change : Scope → Scope} (inner : Alike (change scope) ts x y P E) :
    Alike scope ts (withReader change x) (withReader change y) P E := inner

theorem alikeFresh {work : Fresh α} (holds : ∀ a, yields work a → P a ts) :
    Alike scope ts (liftM work) (liftM work) P E := ⟨rfl, fun s => holds _ ⟨s, (work s).2, rfl⟩⟩

theorem alikeBuild {position : Nat} {work : Build α} (holds : ∀ a, yields work a → P a ts)
    (fails : ∀ e, E (.query e position)) : Alike scope ts (build position work) (build position work) P E := by
  refine ⟨rfl, fun s => ?_⟩
  change match (((work.run s).1.map (·, ts)).mapError (.query · position) : Except ParseError (α × Tokens)) with
    | .ok (a, ts') => P a ts'
    | .error e => E e
  rcases run : work.run s with ⟨r, s'⟩
  cases r with
  | error e => exact fails e
  | ok a => exact holds a ⟨s, s', run⟩

theorem alikeMap {as : List α} {f : α → Reading β} {I : α → Prop} {P : β → Prop} (known : ∀ a ∈ as, I a)
    (each : ∀ a, I a → Alike scope ts (f a) (f a) (fun b ts' => P b ∧ ts' = ts) E) :
    Alike scope ts (as.mapM f) (as.mapM f) (fun bs ts' => (∀ b ∈ bs, P b) ∧ ts' = ts) E := by
  induction as with
  | nil => exact alikePure ⟨List.forall_mem_nil _, rfl⟩
  | cons a rest ih =>
    obtain ⟨here, later⟩ := List.forall_mem_cons.mp known
    rw [List.mapM_cons]
    refine alikeBind (each a here) ?_
    rintro b _ ⟨holds, rfl⟩
    refine alikeBind (ih later) ?_
    rintro bs _ ⟨all, rfl⟩
    exact alikePure ⟨List.forall_mem_cons.mpr ⟨holds, all⟩, rfl⟩

section Tokenwise
variable {whole : Tokens} {n : Nat} {token : Token} {expected : Expected}

theorem alikeUnexpected (left : Left whole n ts) :
    Alike scope ts (unexpected expected) (unexpected expected) P whole.Reports := alikeSeen (alikeThrow left.next)

theorem acceptsAlike (left : Left whole n ts) (solid : token ≠ .eof) :
    Alike scope ts (accepts token) (accepts token)
      (fun seen ts' => if seen then Left whole ts.pending.length ts' else ts' = ts) E := by
  refine alikeSees ?_
  cases same : ts.next.1 == token with
  | true => exact alikeAdvance (alikePure (left.advance (eq_of_beq same ▸ solid)))
  | false => exact alikePure rfl

theorem expectAlike (left : Left whole n ts) (solid : token ≠ .eof) :
    Alike scope ts (expect token) (expect token) (fun _ => Left whole ts.pending.length) whole.Reports := by
  refine alikeSees ?_
  cases same : ts.next.1 == token with
  | true => exact alikeAdvance (f := pure) (g := pure) (alikePure (left.advance (eq_of_beq same ▸ solid)))
  | false => exact alikeUnexpected left

theorem expectEndAlike (left : Left whole n ts) :
    Alike scope ts (expect .eof) (expect .eof) (fun _ _ => True) whole.Reports := by
  refine alikeSees ?_
  split
  · exact alikeAdvance (f := pure) (g := pure) (alikePure trivial)
  · exact alikeUnexpected left

theorem identifierAlike (left : Left whole n ts) :
    Alike scope ts identifier identifier
      (fun found ts' => (.identifier found.1, found.2) ∈ whole.toList ∧ Left whole ts.pending.length ts') whole.Reports := by
  have here := left.next
  refine alikeSeen ?_
  cases same : ts.next with
  | mk token position =>
    rw [same] at here
    cases token with
    | identifier name => exact alikeAdvance (alikePure ⟨here, left.advance (by simp [same])⟩)
    | _ => exact alikeUnexpected left

def Onward (whole ts : Tokens) (I : α → Prop) : Option α → Tokens → Prop
  | none, ts' => ts' = ts
  | some a, ts' => I a ∧ Left whole ts.pending.length ts'

variable {step step' : α → Reading (Option α)} {I : α → Prop} {a : α}

theorem Alike.onward {x y : Reading (Option α)} {I I' : α → Prop} (alike : Alike scope ts x y (Onward whole ts I) E)
    (weaker : ∀ a, I a → I' a) : Alike scope ts x y (Onward whole ts I') E := by
  refine alike.imp fun r ts' onward => ?_
  cases r with
  | none => exact onward
  | some a => exact ⟨weaker a onward.1, onward.2⟩

theorem goAlike (holds : I a) (left : Left whole n ts)
    (each : ∀ a ts, I a → Left whole n ts → Alike scope ts (step a) (step' a) (Onward whole ts I) E) {k k' : Nat}
    (enough : ts.pending.length < k) (enough' : ts.pending.length < k') :
    Alike scope ts (iterate.go step k a) (iterate.go step' k' a)
      (fun b ts' => I b ∧ Left whole (ts.pending.length + 1) ts') E := by
  induction k generalizing ts k' a with
  | zero => cases enough
  | succ k ih =>
    cases k' with
    | zero => cases enough'
    | succ k' =>
      refine alikeBind (each a ts holds left) fun r ts' onward => ?_
      cases r with
      | none =>
        cases onward
        exact alikePure ⟨holds, left.same⟩
      | some b =>
        obtain ⟨kept, later⟩ := onward
        have fewer := later.fewer
        exact (ih kept (left.past later) (by omega) (by omega)).imp fun b ts'' ⟨kept, last⟩ =>
          ⟨kept, last.mono (by omega)⟩

theorem iterateAlike (holds : I a) (left : Left whole n ts)
    (each : ∀ a ts, I a → Left whole n ts → Alike scope ts (step a) (step' a) (Onward whole ts I) E) :
    Alike scope ts (iterate step a) (iterate step' a) (fun b ts' => I b ∧ Left whole (ts.pending.length + 1) ts') E :=
  goAlike holds left each (Nat.lt_succ_self _) (Nat.lt_succ_self _)

end Tokenwise

def Unrolls (step : α → Reading (Option α)) : Prop :=
  ∀ a, iterate step a = do
    match ← step a with
    | some b => iterate step b
    | none => pure a

theorem unrolls {step : α → Reading (Option α)} {I : Scope → Tokens → α → α → Prop} (each : ∀ scope whole n a ts,
    Left whole n ts → Alike scope ts (step a) (step a) (Onward whole ts (I scope whole a)) whole.Reports) :
    Unrolls step := by
  intro a
  funext scope ts
  have every (ts' : Tokens) (a : α) (left : Left ts (ts.pending.length + 1) ts') :
      Alike scope ts' (step a) (step a) (Onward ts ts' fun _ => True) ts.Reports :=
    (each scope ts _ a ts' left).onward fun _ _ => trivial
  change iterate.go step (ts.pending.length + 1) a scope ts = _
  refine (alikeBind (every ts a leftAll) (Q := fun _ _ => True) fun r ts' onward => ?_ : Alike ..).1
  cases r with
  | none => exact alikePure trivial
  | some b =>
    have later := onward.2
    exact (goAlike trivial (leftAll.past later) (fun a ts' _ left => every ts' a left) later.fewer
      (Nat.lt_succ_self _)).imp fun _ _ _ => trivial

end Reading

end SymbolicQuery
