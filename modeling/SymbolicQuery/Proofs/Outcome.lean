import SymbolicQuery.Proofs.Result

/-! What work ends in: what holds of every result and of every error. Sequencing, repetition and
loops keep both, so a run is followed stage by stage with one invariant. -/
namespace SymbolicQuery
open Results

variable {α β : Type} {P : α → Prop} {Q : β → Prop} {E : QueryError → Prop}

def Expects (x : Except QueryError α) (P : α → Prop) (E : QueryError → Prop) : Prop :=
  (∀ a, x = .ok a → P a) ∧ ∀ e, x = .error e → E e

theorem expectsOk {a : α} (holds : P a) : Expects (.ok a) P E :=
  ⟨fun _ h => by cases h; exact holds, fun _ h => by cases h⟩

theorem expectsKnown {x : Except QueryError α} {a : α} (known : x = .ok a) : Expects x (fun b => a = b) E :=
  known ▸ expectsOk rfl

theorem expectsError {e : QueryError} (holds : E e) : Expects (.error e) P E :=
  ⟨fun _ h => (by cases h), fun _ h => by cases h; exact holds⟩

theorem expectsBind {x : Except QueryError α} {f : α → Except QueryError β} (first : Expects x P E)
    (next : ∀ a, P a → Expects (f a) Q E) : Expects (x >>= f) Q E := by
  cases x with
  | error e => exact expectsError (first.2 e rfl)
  | ok a => exact next a (first.1 a rfl)

theorem Expects.imp {x : Except QueryError α} {P' : α → Prop} (h : Expects x P E)
    (weaker : ∀ a, P a → P' a) : Expects x P' E := ⟨fun a same => weaker a (h.1 a same), h.2⟩

theorem Expects.made {x : Except QueryError α} (h : Expects x P E) : Expects x (fun a => x = .ok a) E :=
  ⟨fun _ same => same, h.2⟩

theorem Expects.runs {x : Except QueryError α} (h : Expects x P fun _ => False) : ∃ a, x = .ok a ∧ P a := by
  cases x with
  | error e => exact (h.2 e rfl).elim
  | ok a => exact ⟨a, rfl, h.1 a rfl⟩

theorem expectsMap {R : α → β → Prop} {f : α → Except QueryError β} {as : List α}
    (each : ∀ a ∈ as, Expects (f a) (R a) E) : Expects (as.mapM f) (List.Forall₂ R as) E := by
  induction as with
  | nil => exact expectsOk .nil
  | cons a rest ih =>
    obtain ⟨here, later⟩ := List.forall_mem_cons.mp each
    rw [List.mapM_cons]
    exact expectsBind here fun b holds => expectsBind (ih later) fun bs known =>
      expectsOk (.cons holds known)

section Work
variable {m : Type → Type} [Monad m] [Results m] {x : ExceptT QueryError m α}

def Ends (x : ExceptT QueryError m α) (P : α → Prop) (E : QueryError → Prop) : Prop :=
  (∀ a, yields x a → P a) ∧ ∀ e, fails x e → E e

theorem endsPure {a : α} (holds : P a) : Ends (m := m) (pure a) P E :=
  ⟨fun _ h => ofPure h ▸ holds, fun _ h => (failsPure h).elim⟩

theorem endsThrow {e : QueryError} (holds : E e) : Ends (m := m) (throw e) P E :=
  ⟨fun _ h => (notThrow h).elim, fun _ h => failsThrow h ▸ holds⟩

theorem endsBind {f : α → ExceptT QueryError m β} (first : Ends x P E)
    (next : ∀ a, P a → Ends (f a) Q E) : Ends (x >>= f) Q E := by
  constructor
  · intro b h
    obtain ⟨a, head, tail⟩ := ofBind h
    exact (next a (first.1 a head)).1 b tail
  · intro e h
    rcases failsBind h with head | ⟨a, head, tail⟩
    · exact first.2 e head
    · exact (next a (first.1 a head)).2 e tail

theorem endsLift [LawfulMonad m] {y : m α} (holds : ∀ a, yields y a → P a) :
    Ends (liftM y : ExceptT QueryError m α) P E :=
  ⟨fun a h => holds a (ofLiftT h), fun _ h => (failsLift h).elim⟩

theorem endsExcept {y : Except QueryError α} (h : Expects y P E) :
    Ends (liftM y : ExceptT QueryError m α) P E :=
  ⟨fun a made => h.1 a (ofExcept made), fun e failed => h.2 e (failsExcept failed)⟩

theorem endsKnown {y : Except QueryError α} {a : α} {f : α → ExceptT QueryError m β} (known : y = .ok a)
    (next : Ends (f a) Q E) : Ends ((liftM y : ExceptT QueryError m α) >>= f) Q E := by
  refine endsBind (endsExcept (expectsKnown known)) fun b same => ?_
  subst same
  exact next

theorem Ends.imp {P' : α → Prop} (h : Ends x P E) (weaker : ∀ a, P a → P' a) : Ends x P' E :=
  ⟨fun a made => weaker a (h.1 a made), h.2⟩

theorem Ends.and {P' : α → Prop} {E' : QueryError → Prop} (h : Ends x P E) (h' : Ends x P' E') :
    Ends x (fun a => P a ∧ P' a) E := ⟨fun a made => ⟨h.1 a made, h'.1 a made⟩, h.2⟩

theorem Ends.yielded (h : Ends x P E) : Ends x (fun a => P a ∧ yields x a) E :=
  ⟨fun a made => ⟨h.1 a made, made⟩, h.2⟩

theorem endsMap [LawfulMonad m] {R : α → β → Prop} {f : α → ExceptT QueryError m β} {as : List α}
    (each : ∀ a ∈ as, Ends (f a) (R a) E) : Ends (as.mapM f) (List.Forall₂ R as) E := by
  induction as with
  | nil => exact endsPure .nil
  | cons a rest ih =>
    obtain ⟨here, later⟩ := List.forall_mem_cons.mp each
    rw [List.mapM_cons]
    exact endsBind here fun b holds => endsBind (ih later) fun bs known =>
      endsPure (.cons holds known)

theorem endsAlong [LawfulMonad m] {R : α → β → Prop} {f : α → ExceptT QueryError m β} {as : List α}
    {bs : List β} (along : List.Forall₂ R as bs) (each : ∀ a b, R a b → Ends (f a) (fun c => b = c) E) :
    Ends (as.mapM f) (fun cs => bs = cs) E := by
  induction along with
  | nil => exact endsPure rfl
  | cons head _ ih =>
    rw [List.mapM_cons]
    refine endsBind (each _ _ head) ?_
    intro b known
    subst known
    refine endsBind ih ?_
    intro b known
    subst known
    exact endsPure rfl

theorem endsFold {I : β → Prop} {f : β → α → ExceptT QueryError m β} {as : List α} {b : β}
    (start : I b) (step : ∀ b, I b → ∀ a ∈ as, Ends (f b a) I E) : Ends (as.foldlM f b) I E := by
  induction as generalizing b with
  | nil => exact endsPure start
  | cons a rest ih =>
    rw [List.foldlM_cons]
    exact endsBind (step b start a List.mem_cons_self) fun b' kept =>
      ih kept fun b known c inside => step b known c (List.mem_cons_of_mem _ inside)

end Work

theorem endsEnsure {condition : Bool} {error : QueryError} (refused : condition = false → E error) :
    Ends (Build.ensure condition error) (fun _ => condition = true) E :=
  ⟨fun _ h => Build.ofEnsure h, fun e h => by
    obtain ⟨no, rfl⟩ := Build.failsEnsure h
    exact refused no⟩

theorem Ends.runs {x : Build α} (h : Ends x P fun _ => False) (s : Supply) :
    ∃ a s', x.run s = (.ok a, s') ∧ P a := by
  obtain ⟨a, s', run, made⟩ := Build.runs h.2 s
  exact ⟨a, s', run, h.1 a made⟩

end SymbolicQuery
