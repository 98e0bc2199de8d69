import Mathlib.Data.List.Induction
import SymbolicQuery.Eval
import SymbolicQuery.Path
import SymbolicQuery.Proofs.Parts
import SymbolicQuery.Proofs.Result

/-! Ways down into a construction. What a search finds is a way down to the searched node, and a
search fails to find only what no way leads to. A path that is followed reads its steps in order. -/
namespace SymbolicQuery
open Results

namespace Step

def valueFrom (v : Value) : Step → Except QueryError Value
  | read member => v.read member.name
  | convertBack ty => v.convert false ty

end Step

namespace Path

def valueFrom (path : Path) (v : Value) : Except QueryError Value := path.foldlM Step.valueFrom v

def typeFrom (path : Path) (start : Ty) : Ty := path.foldl (fun _ step => step.target) start

def Converts (path : Path) : Prop := ∃ ty, Step.convertBack ty ∈ path

theorem valueSnoc (path : Path) (step : Step) (v : Value) :
    valueFrom (path ++ [step]) v = (valueFrom path v >>= fun u => step.valueFrom u) := by
  simp only [valueFrom, List.foldlM_append, List.foldlM_cons, List.foldlM_nil, bind_pure]

theorem typeSnoc (path : Path) (step : Step) (start : Ty) :
    typeFrom (path ++ [step]) start = step.target := by
  simp only [typeFrom, List.foldl_append, List.foldl_cons, List.foldl_nil]

end Path

namespace Expr

inductive Descends (full : Expr) : Path → Expr → Prop where
  | here : Descends full [] full
  | field {path : Path} {i t ms es m e} (outer : Descends full path (.construct i t ms es))
      (inside : (m, e) ∈ ms.zip es) (allowed : (Step.read m).allowed (path.typeFrom full.ty) = true) :
      Descends full (path ++ [.read m]) e
  | base {path i t b bs} (outer : Descends full path (.populate i t b bs)) : Descends full path b
  | binding {path : Path} {i t b bs m e} (outer : Descends full path (.populate i t b bs))
      (inside : .assign m e ∈ bs) (allowed : (Step.read m).allowed (path.typeFrom full.ty) = true) :
      Descends full (path ++ [.read m]) e
  | back {path : Path} {i t c o} (outer : Descends full path (.convert i t c o))
      (allowed : (Step.convertBack o.ty).allowed (path.typeFrom full.ty) = true) :
      Descends full (path ++ [.convertBack o.ty]) o

section Search
variable {searched full : Expr} {path found : Path}

def Finds (searched full e : Expr) : Prop :=
  ∀ {path s found}, Descends full path e →
    (search searched (path.typeFrom full.ty) path s e).found = some found →
      s.found = some found ∨ Descends full found searched

theorem findsField {e : Expr} {m : Member} {s : Search} (finds : Finds searched full e)
    (way : (Step.read m).allowed (path.typeFrom full.ty) = true → Descends full (path ++ [.read m]) e)
    (h : (if (Step.read m).allowed (path.typeFrom full.ty) = true then
        search searched (Step.read m).target (path ++ [.read m]) s e
      else s.refuse ((Step.read m).refusal (path.typeFrom full.ty))).found = some found) :
    s.found = some found ∨ Descends full found searched := by
  split at h
  · rename_i allowed
    rw [← Path.typeSnoc path (.read m) full.ty] at h
    exact finds (way allowed) h
  · exact .inl h

theorem findsFields {s : Search} {ms : List Member} {es : List Expr}
    (finds : ∀ e ∈ es, Finds searched full e)
    (way : ∀ m e, (m, e) ∈ ms.zip es → (Step.read m).allowed (path.typeFrom full.ty) = true →
      Descends full (path ++ [.read m]) e)
    (h : (searchFields searched (path.typeFrom full.ty) path s ms es).found = some found) :
    s.found = some found ∨ Descends full found searched := by
  induction ms generalizing es s with
  | nil => cases es <;> exact .inl h
  | cons m ms ih =>
    cases es with
    | nil => exact .inl h
    | cons e es =>
      unfold searchFields at h
      rcases ih (fun c inside => finds c (List.mem_cons_of_mem _ inside))
        (fun m c inside => way m c (List.mem_cons_of_mem _ inside)) h with first | descends
      · exact findsField (finds e List.mem_cons_self) (way m e List.mem_cons_self) first
      · exact .inr descends

theorem findsBindings {s : Search} {bs : List Binding}
    (finds : ∀ e ∈ bs.flatMap BindingOf.parts, Finds searched full e)
    (way : ∀ m e, .assign m e ∈ bs → (Step.read m).allowed (path.typeFrom full.ty) = true →
      Descends full (path ++ [.read m]) e)
    (h : (searchBindings searched (path.typeFrom full.ty) path s bs).found = some found) :
    s.found = some found ∨ Descends full found searched := by
  induction bs generalizing s with
  | nil => exact .inl h
  | cons b bs ih =>
    have rest : ∀ {s : Search},
        (searchBindings searched (path.typeFrom full.ty) path s bs).found = some found →
          s.found = some found ∨ Descends full found searched :=
      ih (fun c inside => finds c (by
          rw [List.flatMap_cons]; exact List.mem_append_right _ inside))
        (fun m c inside => way m c (List.mem_cons_of_mem _ inside))
    cases b with
    | assign m e =>
      unfold searchBindings at h
      rcases rest h with first | descends
      · exact findsField (finds e (by simp [BindingOf.parts])) (way m e List.mem_cons_self) first
      · exact .inr descends
    | collect m items =>
      unfold searchBindings at h
      exact rest h

theorem searchFinds (e : Expr) : Finds searched full e := by
  induction e using partsInduction with
  | step e ih =>
    intro path s found down h
    unfold search at h
    split at h
    · rename_i same
      cases h
      exact .inr (same ▸ down)
    · cases e with
      | construct i t ms es =>
        exact findsFields ih (fun m c inside allowed => .field down inside allowed) h
      | populate i t b bs =>
        rcases findsBindings (fun c inside => ih c (List.mem_cons_of_mem _ inside))
          (fun m c inside allowed => .binding down inside allowed) h with first | descends
        · exact ih b List.mem_cons_self (.base down) first
        · exact .inr descends
      | convert i t c o =>
        dsimp only at h
        split at h
        · rename_i allowed
          rw [← Path.typeSnoc path (.convertBack o.ty) full.ty] at h
          exact ih o List.mem_cons_self (.back down allowed) h
        · exact .inl h
      | _ => exact .inl h

theorem locateDescends (h : searched.locate full = some path) : Descends full path searched := by
  rcases searchFinds full .here h with none | descends
  · cases none
  · exact descends

theorem pathToDescends (h : searched.pathTo full = .ok path) : Descends full path searched := by
  unfold pathTo at h
  dsimp only at h
  split at h
  · rename_i found
    cases h
    exact locateDescends found
  · cases h
  · cases h

structure Search.Keeps (I : Search → Prop) : Prop where
  find : ∀ {s path}, I s → I (s.find path)
  refuse : ∀ {s ty} {step : Step}, step.allowed ty = false → I s → I (s.refuse (step.refusal ty))

section Keeps
variable {I : Search → Prop}

def KeptFrom (I : Search → Prop) (searched e : Expr) : Prop :=
  ∀ {ty path s}, I s → I (search searched ty path s e)

theorem keptMember {ty : Ty} {s : Search} {e : Expr} {step : Step} (keeps : Search.Keeps I)
    (kept : KeptFrom I searched e) (holds : I s) :
    I (if step.allowed ty = true then search searched step.target (path ++ [step]) s e
      else s.refuse (step.refusal ty)) := by
  split
  · exact kept holds
  · rename_i refused
    exact keeps.refuse (by simpa using refused) holds

theorem keptFields {ty : Ty} {s : Search} {ms : List Member} {es : List Expr} (keeps : Search.Keeps I)
    (each : ∀ e ∈ es, KeptFrom I searched e) (holds : I s) :
    I (searchFields searched ty path s ms es) := by
  induction ms generalizing es s with
  | nil => cases es <;> exact holds
  | cons m ms ih =>
    cases es with
    | nil => exact holds
    | cons e es =>
      unfold searchFields
      exact ih (fun c inside => each c (List.mem_cons_of_mem _ inside))
        (keptMember keeps (each e List.mem_cons_self) holds)

theorem keptBindings {ty : Ty} {s : Search} {bs : List Binding} (keeps : Search.Keeps I)
    (each : ∀ e ∈ bs.flatMap BindingOf.parts, KeptFrom I searched e) (holds : I s) :
    I (searchBindings searched ty path s bs) := by
  induction bs generalizing s with
  | nil => exact holds
  | cons b bs ih =>
    rw [List.flatMap_cons] at each
    obtain ⟨here, later⟩ := List.forall_mem_append.mp each
    cases b with
    | assign m e =>
      unfold searchBindings
      exact ih later (keptMember keeps (here e List.mem_cons_self) holds)
    | collect m items =>
      unfold searchBindings
      exact ih later holds

theorem searchKept (keeps : Search.Keeps I) (e : Expr) : KeptFrom I searched e := by
  induction e using partsInduction with
  | step e ih =>
    intro ty path s holds
    unfold search
    split
    · exact keeps.find holds
    · cases e with
      | construct i t ms es => exact keptFields keeps ih holds
      | populate i t b bs =>
        exact keptBindings keeps (fun c inside => ih c (List.mem_cons_of_mem _ inside))
          (ih b List.mem_cons_self holds)
      | convert i t c o => exact keptMember keeps (ih o List.mem_cons_self) holds
      | _ => exact holds

structure Search.Settles (I : Search → Prop) : Prop extends Search.Keeps I where
  found : ∀ (s : Search) (path : Path), I (s.find path)

theorem settlesFound : Search.Settles fun s => s.found.isSome = true :=
  ⟨⟨fun _ => rfl, fun _ h => h⟩, fun _ _ => rfl⟩

theorem meetsFields {ty : Ty} {s : Search} {ms : List Member} {es : List Expr} {m : Member} {e : Expr}
    (settles : Search.Settles I) (inside : (m, e) ∈ ms.zip es)
    (meets : ∀ s : Search, I (if (Step.read m).allowed ty = true then search searched m.ty (path ++ [.read m]) s e
      else s.refuse ((Step.read m).refusal ty))) : I (searchFields searched ty path s ms es) := by
  -- A search settles with a whole what it settles from a part, since it goes through every
  -- part.
  induction ms generalizing es s with
  | nil => cases inside
  | cons m' ms ih =>
    cases es with
    | nil => cases inside
    | cons e' es =>
      unfold searchFields
      rcases List.mem_cons.mp inside with same | later
      · cases same
        exact keptFields settles.toKeeps (fun c _ => searchKept settles.toKeeps c) (meets s)
      · exact ih later

theorem meetsBindings {ty : Ty} {s : Search} {bs : List Binding} {m : Member} {e : Expr}
    (settles : Search.Settles I) (inside : .assign m e ∈ bs)
    (meets : ∀ s : Search, I (if (Step.read m).allowed ty = true then search searched m.ty (path ++ [.read m]) s e
      else s.refuse ((Step.read m).refusal ty))) : I (searchBindings searched ty path s bs) := by
  induction bs generalizing s with
  | nil => cases inside
  | cons b bs ih =>
    rcases List.mem_cons.mp inside with rfl | later
    · unfold searchBindings
      exact keptBindings settles.toKeeps (fun c _ => searchKept settles.toKeeps c) (meets s)
    · cases b with
      | assign m' e' => unfold searchBindings; exact ih later
      | collect m' es => unfold searchBindings; exact ih later

theorem searchMeets {n : Expr} (settles : Search.Settles I) (down : Descends full path n)
    (meets : ∀ s, I (search searched (path.typeFrom full.ty) path s n)) (s : Search) :
    I (search searched full.ty [] s full) := by
  induction down generalizing s with
  | here => exact meets s
  | field _ inside allowed ih =>
    refine ih (fun s => ?_) s
    unfold search
    split
    · exact settles.found _ _
    · refine meetsFields settles inside fun s => ?_
      rw [if_pos allowed]
      simpa only [Path.typeSnoc, Step.target] using meets s
  | base _ ih =>
    refine ih (fun s => ?_) s
    unfold search
    split
    · exact settles.found _ _
    · exact keptBindings settles.toKeeps (fun c _ => searchKept settles.toKeeps c) (meets s)
  | binding _ inside allowed ih =>
    refine ih (fun s => ?_) s
    unfold search
    split
    · exact settles.found _ _
    · refine meetsBindings settles inside fun s => ?_
      rw [if_pos allowed]
      simpa only [Path.typeSnoc, Step.target] using meets s
  | back _ allowed ih =>
    refine ih (fun s => ?_) s
    unfold search
    split
    · exact settles.found _ _
    · dsimp only
      rw [if_pos allowed]
      simpa only [Path.typeSnoc] using meets s

end Keeps

theorem descendsLocate (down : Descends full path searched) :
    ∃ found, searched.locate full = some found := by
  refine Option.isSome_iff_exists.mp (searchMeets settlesFound down (fun s => ?_) .start)
  unfold search
  rw [if_pos rfl]
  rfl

end Search

end Expr

section Follow
variable {b : Assignment} {e e' start : Expr} {step : Step} {path : Path}

theorem Step.takeYields (h : yields (Step.take e step) e') :
    (∃ i m, step = .read m ∧ (e' = .access i e m ∨ e' = .getter i e m)) ∨
      ∃ i ty, step = .convertBack ty ∧ e' = .convert i ty false e := by
  cases step with
  | read m =>
    obtain ⟨i, _, h⟩ := ofBind h
    split at h
    · cases ofPure h; exact .inl ⟨i, m, rfl, .inr rfl⟩
    · cases ofPure h; exact .inl ⟨i, m, rfl, .inl rfl⟩
  | convertBack ty =>
    obtain ⟨i, _, h⟩ := ofBind h
    cases ofPure h
    exact .inr ⟨i, ty, rfl, rfl⟩

theorem Step.takeEval (h : yields (Step.take e step) e') :
    e'.eval b = (e.eval b >>= fun v => step.valueFrom v) := by
  obtain ⟨i, m, rfl, rfl | rfl⟩ | ⟨i, ty, rfl, rfl⟩ := Step.takeYields h <;> simp only [Expr.eval] <;> rfl

theorem Step.takeTy (h : yields (Step.take e step) e') : e'.ty = step.target := by
  obtain ⟨i, m, rfl, rfl | rfl⟩ | ⟨i, ty, rfl, rfl⟩ := Step.takeYields h <;> rfl

theorem Step.takeNodes (h : yields (Step.take e step) e') : e'.nodes = e' :: e.nodes := by
  obtain ⟨i, m, rfl, rfl | rfl⟩ | ⟨i, ty, rfl, rfl⟩ := Step.takeYields h <;> simp only [Expr.nodes]

theorem Path.followSnoc (h : yields (Path.follow (path ++ [step]) start) e') :
    ∃ e, yields (Path.follow path start) e ∧ yields (Step.take e step) e' := by
  unfold Path.follow at h
  rw [List.foldlM_append] at h
  obtain ⟨e, first, h⟩ := ofBind h
  obtain ⟨e'', last, h⟩ := ofBind h
  cases ofPure h
  exact ⟨e, first, last⟩

theorem Path.followEval (h : yields (Path.follow path start) e') :
    e'.eval b = (start.eval b >>= fun v => path.valueFrom v) := by
  induction path using List.reverseRecOn generalizing e' with
  | nil =>
    cases ofPure h
    exact (bind_pure _).symm
  | append_singleton path step ih =>
    obtain ⟨e, first, last⟩ := Path.followSnoc h
    rw [Step.takeEval last, ih first, bind_assoc]
    simp only [Path.valueSnoc]

theorem Path.followClosed {j : Nat} {q : Param} (h : yields (Path.follow path (.parameter j q)) e') :
    ∀ n ∈ e'.nodes, ∀ i s, n ≠ .reference i s := by
  induction path using List.reverseRecOn generalizing e' with
  | nil =>
    cases ofPure h
    simp only [Expr.nodes, List.mem_singleton]
    intro n same i s other
    subst same
    cases other
  | append_singleton path step ih =>
    obtain ⟨e, first, last⟩ := Path.followSnoc h
    rw [Step.takeNodes last]
    intro n inside i s same
    rcases List.mem_cons.mp inside with rfl | below
    · obtain ⟨_, _, _, rfl | rfl⟩ | ⟨_, _, _, rfl⟩ := Step.takeYields last <;> cases same
    · exact ih first n below i s same

theorem Path.followTy (h : yields (Path.follow path start) e') : e'.ty = path.typeFrom start.ty := by
  induction path using List.reverseRecOn generalizing e' with
  | nil =>
    cases ofPure h
    rfl
  | append_singleton path step ih =>
    obtain ⟨e, first, last⟩ := Path.followSnoc h
    rw [Step.takeTy last, Path.typeSnoc]

end Follow

end SymbolicQuery
