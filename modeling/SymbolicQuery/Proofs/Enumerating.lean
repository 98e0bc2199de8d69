import SymbolicQuery.Proofs.Descent
import SymbolicQuery.Proofs.Making

/-! The ways down into a construction, one after another. A search holds one place and one error at a time; what it comes
to is read off the list of all the nodes that it comes by and of the steps that it cannot take: the last place of the
searched node, or else the first of these steps. -/
namespace SymbolicQuery
open Results

/-- One end of a way down: at a node, or before a step that cannot be taken. The whole is the node whose value stands at
the path, which for the construction under bindings is the one that they complete. -/
inductive Descent where
  | arrives (path : Path) (node whole : Expr)
  | stops (path : Path) (step : Step)

theorem Build.ensureThen {α : Type} {condition : Bool} {error : QueryError} (f : Unit → Build α) (s : Supply) :
    (Build.ensure condition error >>= f).run s = if condition then (f ()).run s else (.error error, s) := by
  cases condition <;> rfl

namespace Step

def make (e : Expr) : Step → Build Expr
  | read member => Build.read e member
  | convertBack ty => Build.convert false e ty

theorem makeRun (e : Expr) (step : Step) (s : Supply) : (step.make e).run s =
    if step.allowed e.ty then (.ok ((step.take e).run s).1, ((step.take e).run s).2)
    else (.error (step.refusal e.ty), s) := by
  cases step with
  | read m => exact Build.ensureThen _ s
  | convertBack t => exact Build.ensureThen _ s

end Step

def Path.make (path : Path) (start : Expr) : Build Expr := path.foldlM Step.make start

inductive Path.Passes (start : Ty) : Path → Prop where
  | nil : Passes start []
  | snoc {path : Path} {step : Step} (passes : Passes start path)
      (allowed : step.allowed (path.typeFrom start) = true) : Passes start (path ++ [step])

theorem Path.Passes.makeRun {path : Path} {start : Expr} {s : Supply} (passes : path.Passes start.ty) :
    (path.make start).run s = (.ok ((path.follow start).run s).1, ((path.follow start).run s).2) := by
  induction passes with
  | nil => rfl
  | @snoc path step _ allowed ih =>
    have reached : yields (path.follow start) ((path.follow start).run s).1 := ⟨s, _, rfl⟩
    unfold Path.make Path.follow at *
    rw [List.foldlM_append, List.foldlM_append, Build.runThen ih]
    simp only [List.foldlM_cons, List.foldlM_nil, bind_pure]
    rw [Step.makeRun, if_pos (Path.followTy reached ▸ allowed)]
    rfl

namespace Expr

mutual

/-- The ends of all ways down from a node, in order. A way ends at the searched node, and before a step that the type
reached so far does not allow. -/
def descents (searched : Expr) (start : Ty) (path : Path) (whole e : Expr) : List Descent :=
  .arrives path e whole ::
    if e = searched then []
    else match e with
      | .construct _ _ members args => fieldDescents searched start path members args
      | .populate _ _ base bindings =>
        descents searched start path e base ++ bindingDescents searched start path bindings
      | .convert _ _ _ operand =>
        let step := Step.convertBack operand.ty
        if step.allowed (path.typeFrom start) then
          descents searched start (path ++ [step]) operand operand
        else [.stops path step]
      | _ => []

def fieldDescents (searched : Expr) (start : Ty) (path : Path) : List Member → List Expr → List Descent
  | member :: members, arg :: args =>
    let step := Step.read member
    (if step.allowed (path.typeFrom start) then descents searched start (path ++ [step]) arg arg
      else [.stops path step]) ++ fieldDescents searched start path members args
  | _, _ => []

def bindingDescents (searched : Expr) (start : Ty) (path : Path) : List Binding → List Descent
  | [] => []
  | .assign member value :: rest =>
    let step := Step.read member
    (if step.allowed (path.typeFrom start) then descents searched start (path ++ [step]) value value
      else [.stops path step]) ++ bindingDescents searched start path rest
  | .collect _ _ :: rest => bindingDescents searched start path rest

end

end Expr

namespace Descent

def place? (searched : Expr) : Descent → Option (Path × Expr)
  | .arrives path node whole => if node = searched then some (path, whole) else none
  | .stops _ _ => none

def stop? : Descent → Option (Path × Step)
  | .arrives _ _ _ => none
  | .stops path step => some (path, step)

end Descent

namespace Expr

def places (searched full : Expr) : List (Path × Expr) :=
  (descents searched full.ty [] full full).filterMap (Descent.place? searched)

def stops (searched full : Expr) : List (Path × Step) :=
  (descents searched full.ty [] full full).filterMap Descent.stop?

end Expr

def Search.note (searched : Expr) (start : Ty) (s : Search) : Descent → Search
  | .arrives path node _ => if node = searched then s.find path else s
  | .stops path step => s.refuse (step.refusal (path.typeFrom start))

namespace Expr
variable {searched full : Expr} {start : Ty} {path : Path}

def Notes (searched : Expr) (start : Ty) (e : Expr) : Prop :=
  ∀ {path s} whole, search searched (path.typeFrom start) path s e =
    (descents searched start path whole e).foldl (Search.note searched start) s

theorem stepNotes {e : Expr} {step : Step} {s : Search} (notes : Notes searched start e) :
    (if step.allowed (path.typeFrom start) then search searched step.target (path ++ [step]) s e
      else s.refuse (step.refusal (path.typeFrom start))) =
    (if step.allowed (path.typeFrom start) then descents searched start (path ++ [step]) e e
      else [.stops path step]).foldl (Search.note searched start) s := by
  split
  · rw [← notes e, Path.typeSnoc]
  · rfl

theorem fieldsNote {ms : List Member} {es : List Expr} {s : Search} (each : ∀ e ∈ es, Notes searched start e) :
    searchFields searched (path.typeFrom start) path s ms es =
      (fieldDescents searched start path ms es).foldl (Search.note searched start) s := by
  induction ms generalizing es s with
  | nil => cases es <;> rfl
  | cons m ms ih =>
    cases es with
    | nil => rfl
    | cons e es =>
      obtain ⟨here, later⟩ := List.forall_mem_cons.mp each
      unfold searchFields fieldDescents
      rw [List.foldl_append, ← stepNotes here]
      exact ih later

theorem bindingsNote {bs : List Binding} {s : Search}
    (each : ∀ e ∈ bs.flatMap BindingOf.parts, Notes searched start e) :
    searchBindings searched (path.typeFrom start) path s bs =
      (bindingDescents searched start path bs).foldl (Search.note searched start) s := by
  induction bs generalizing s with
  | nil => rfl
  | cons b bs ih =>
    rw [List.flatMap_cons] at each
    obtain ⟨here, later⟩ := List.forall_mem_append.mp each
    cases b with
    | assign m e =>
      unfold searchBindings bindingDescents
      rw [List.foldl_append, ← stepNotes (here e List.mem_cons_self)]
      exact ih later
    | collect m items =>
      unfold searchBindings bindingDescents
      exact ih later

theorem searchNotes (e : Expr) : Notes searched start e := by
  induction e using partsInduction with
  | step e ih =>
    intro path s whole
    unfold search descents
    rw [List.foldl_cons]
    by_cases same : e = searched
    · simp only [if_pos same, Search.note, List.foldl_nil]
    · simp only [if_neg same, Search.note]
      cases e with
      | construct i t ms es => exact fieldsNote ih
      | populate i t b bs =>
        rw [List.foldl_append, ← ih b List.mem_cons_self]
        exact bindingsNote fun c inside => ih c (List.mem_cons_of_mem _ inside)
      | convert i t c o => exact stepNotes (ih o List.mem_cons_self)
      | _ => rfl

theorem notedFound {ds : List Descent} {s : Search} : (ds.foldl (Search.note searched start) s).found =
    ((ds.filterMap (Descent.place? searched)).getLast?.map Prod.fst).or s.found := by
  induction ds using List.reverseRecOn with
  | nil => rfl
  | append_singleton ds d ih =>
    rw [List.foldl_append, List.filterMap_append, List.foldl_cons, List.foldl_nil]
    cases d with
    | stops path step => simpa [Search.note, Search.refuse, Descent.place?] using ih
    | arrives path node whole =>
      by_cases same : node = searched
      · simp [Search.note, Search.find, Descent.place?, same]
      · simpa [Search.note, Descent.place?, same] using ih

theorem notedRefused {ds : List Descent} {s : Search} : (ds.foldl (Search.note searched start) s).refused =
    s.refused.or ((ds.filterMap Descent.stop?).head?.map fun stop => stop.2.refusal (stop.1.typeFrom start)) := by
  induction ds using List.reverseRecOn with
  | nil => exact (Option.or_none).symm
  | append_singleton ds d ih =>
    rw [List.foldl_append, List.filterMap_append, List.foldl_cons, List.foldl_nil]
    cases d with
    | stops path step =>
      simp only [Search.note, Search.refuse, ih, List.head?_append, Option.map_or, Option.or_assoc]
      rfl
    | arrives path node whole =>
      have kept : (Search.note searched start (ds.foldl (Search.note searched start) s) (.arrives path node whole)).refused =
          (ds.foldl (Search.note searched start) s).refused := by
        simp only [Search.note, Search.find]
        split <;> rfl
      simpa [kept, Descent.stop?] using ih

theorem pathToEnds : pathTo searched full =
    match (places searched full).getLast?, (stops searched full).head? with
    | some place, _ => .ok place.1
    | none, some stop => .error (stop.2.refusal (stop.1.typeFrom full.ty))
    | none, none => .error (.noPath full.text searched.text) := by
  have notes : Notes searched full.ty full := searchNotes full
  have noted : search searched full.ty [] .start full =
      (descents searched full.ty [] full full).foldl (Search.note searched full.ty) .start := @notes [] .start full
  unfold pathTo
  rw [noted]
  simp only [notedFound, notedRefused, Search.start, Option.or_none, Option.none_or]
  unfold places stops
  cases ((descents searched full.ty [] full full).filterMap (Descent.place? searched)).getLast? with
  | some place => rfl
  | none => cases ((descents searched full.ty [] full full).filterMap Descent.stop?).head? <;> rfl

theorem foundLast (found : pathTo searched full = .ok path) :
    ∃ whole, (places searched full).getLast? = some (path, whole) := by
  rw [pathToEnds] at found
  cases last : (places searched full).getLast? with
  | some place =>
    rw [last] at found
    cases found
    exact ⟨place.2, rfl⟩
  | none =>
    rw [last] at found
    cases first : (stops searched full).head? <;> rw [first] at found <;> cases found

inductive Lands (full : Expr) : Path → Expr → Expr → Prop where
  | here : Lands full [] full full
  | field {path : Path} {whole i t ms es m e} (outer : Lands full path (.construct i t ms es) whole)
      (inside : (m, e) ∈ ms.zip es) (allowed : (Step.read m).allowed (path.typeFrom full.ty) = true) :
      Lands full (path ++ [.read m]) e e
  | base {path whole i t b bs} (outer : Lands full path (.populate i t b bs) whole) :
      Lands full path b (.populate i t b bs)
  | binding {path : Path} {whole i t b bs m e} (outer : Lands full path (.populate i t b bs) whole)
      (inside : .assign m e ∈ bs) (allowed : (Step.read m).allowed (path.typeFrom full.ty) = true) :
      Lands full (path ++ [.read m]) e e
  | back {path : Path} {whole i t c o} (outer : Lands full path (.convert i t c o) whole)
      (allowed : (Step.convertBack o.ty).allowed (path.typeFrom full.ty) = true) :
      Lands full (path ++ [.convertBack o.ty]) o o

theorem Lands.descends {n whole : Expr} (lands : Lands full path n whole) : Descends full path n := by
  induction lands with
  | here => exact .here
  | field _ inside allowed ih => exact .field ih inside allowed
  | base _ ih => exact .base ih
  | binding _ inside allowed ih => exact .binding ih inside allowed
  | back _ allowed ih => exact .back ih allowed

def Reaches (full : Expr) : Descent → Prop
  | .arrives path node whole => Lands full path node whole
  | .stops path step => (∃ n, Descends full path n) ∧ step.allowed (path.typeFrom full.ty) = false

def Leads (searched full e : Expr) : Prop :=
  ∀ {path whole}, Lands full path e whole → ∀ d ∈ descents searched full.ty path whole e, Reaches full d

theorem stepLeads {e n whole : Expr} {step : Step} (leads : Leads searched full e) (outer : Lands full path n whole)
    (way : step.allowed (path.typeFrom full.ty) = true → Lands full (path ++ [step]) e e) :
    ∀ d ∈ (if step.allowed (path.typeFrom full.ty) then descents searched full.ty (path ++ [step]) e e
      else [.stops path step]), Reaches full d := by
  split
  · rename_i allowed
    exact leads (way allowed)
  · rename_i refused
    intro d inside
    cases List.mem_singleton.mp inside
    exact ⟨⟨n, outer.descends⟩, by simpa using refused⟩

theorem fieldsLead {n whole : Expr} {ms : List Member} {es : List Expr} (each : ∀ e ∈ es, Leads searched full e)
    (outer : Lands full path n whole)
    (way : ∀ m e, (m, e) ∈ ms.zip es → (Step.read m).allowed (path.typeFrom full.ty) = true →
      Lands full (path ++ [.read m]) e e) :
    ∀ d ∈ fieldDescents searched full.ty path ms es, Reaches full d := by
  induction ms generalizing es with
  | nil =>
    intro d inside
    cases es <;> cases inside
  | cons m ms ih =>
    cases es with
    | nil =>
      intro d inside
      cases inside
    | cons e es =>
      obtain ⟨here, later⟩ := List.forall_mem_cons.mp each
      obtain ⟨way, ways⟩ : _ ∧ _ := ⟨way m e List.mem_cons_self, fun m e inside => way m e (List.mem_cons_of_mem _ inside)⟩
      unfold fieldDescents
      exact List.forall_mem_append.mpr ⟨stepLeads here outer way, ih later ways⟩

theorem bindingsLead {n whole : Expr} {bs : List Binding}
    (each : ∀ e ∈ bs.flatMap BindingOf.parts, Leads searched full e) (outer : Lands full path n whole)
    (way : ∀ m e, .assign m e ∈ bs → (Step.read m).allowed (path.typeFrom full.ty) = true →
      Lands full (path ++ [.read m]) e e) :
    ∀ d ∈ bindingDescents searched full.ty path bs, Reaches full d := by
  induction bs with
  | nil =>
    intro d inside
    cases inside
  | cons b bs ih =>
    rw [List.flatMap_cons] at each
    obtain ⟨here, later⟩ := List.forall_mem_append.mp each
    have rest := ih later fun m e inside => way m e (List.mem_cons_of_mem _ inside)
    cases b with
    | assign m e =>
      unfold bindingDescents
      exact List.forall_mem_append.mpr ⟨stepLeads (here e List.mem_cons_self) outer (way m e List.mem_cons_self), rest⟩
    | collect m items =>
      unfold bindingDescents
      exact rest

theorem descentsLead (e : Expr) : Leads searched full e := by
  induction e using partsInduction with
  | step e ih =>
    intro path whole lands
    unfold descents
    refine List.forall_mem_cons.mpr ⟨lands, ?_⟩
    split
    · intro d inside
      cases inside
    · cases e with
      | construct i t ms es => exact fieldsLead ih lands fun m c inside allowed => .field lands inside allowed
      | populate i t b bs =>
        refine List.forall_mem_append.mpr ⟨ih b List.mem_cons_self (.base lands), ?_⟩
        exact bindingsLead (fun c inside => ih c (List.mem_cons_of_mem _ inside)) lands
          fun m c inside allowed => .binding lands inside allowed
      | convert i t c o => exact stepLeads (ih o List.mem_cons_self) lands fun allowed => .back lands allowed
      | _ =>
        intro d inside
        cases inside

theorem placesLand {whole : Expr} (inside : (path, whole) ∈ places searched full) : Lands full path searched whole := by
  obtain ⟨d, listed, place⟩ := List.mem_filterMap.mp inside
  have reaches := descentsLead full .here d listed
  cases d with
  | arrives p n w =>
    simp only [Descent.place?, Option.ite_none_right_eq_some, Option.some.injEq, Prod.mk.injEq] at place
    obtain ⟨rfl, rfl, rfl⟩ := place
    exact reaches
  | stops => cases place

theorem stopsRefuse {step : Step} (inside : (path, step) ∈ stops searched full) :
    (∃ n, Descends full path n) ∧ step.allowed (path.typeFrom full.ty) = false := by
  obtain ⟨d, listed, stop⟩ := List.mem_filterMap.mp inside
  have reaches := descentsLead full .here d listed
  cases d with
  | arrives => cases stop
  | stops =>
    cases stop
    exact reaches

theorem Descends.passes {n : Expr} (down : Descends full path n) : path.Passes full.ty := by
  induction down with
  | here => exact .nil
  | base _ ih => exact ih
  | field _ _ allowed ih | binding _ _ allowed ih | back _ allowed ih => exact .snoc ih allowed

theorem Descends.assignable {n : Expr} (fitting : full.Every Fitting) (down : Descends full path n) :
    n.Every Fitting ∧ (path.typeFrom full.ty).assignable n.ty = true := by
  -- A path leads to a type to which the node may be assigned, as members may be given more than
  -- they are declared for.
  induction down with
  | here => exact ⟨fitting, Ty.assignableSelf _⟩
  | field _ inside _ ih =>
    rw [Path.typeSnoc]
    exact ⟨ih.1.part (argumentInside inside), ih.1.here _ _ inside⟩
  | base _ ih =>
    obtain ⟨⟨j, ms, es, rfl⟩, _⟩ := ih.1.here
    exact ⟨ih.1.part List.mem_cons_self, ih.2⟩
  | binding _ inside _ ih =>
    rw [Path.typeSnoc]
    exact ⟨ih.1.part (bindingInside inside), ih.1.here.2 _ _ inside⟩
  | back _ _ ih =>
    rw [Path.typeSnoc]
    exact ⟨ih.1.part List.mem_cons_self, Ty.assignableSelf _⟩

def leaves (e : Expr) : List Expr := e.nodes.filter (·.parts.isEmpty)

theorem followLeaves {start e' : Expr} (h : yields (path.follow start) e') : e'.leaves = start.leaves := by
  induction path using List.reverseRecOn generalizing e' with
  | nil =>
    cases ofPure h
    rfl
  | append_singleton path step ih =>
    obtain ⟨e, first, last⟩ := Path.followSnoc h
    have inner : e'.parts.isEmpty = false := by
      obtain ⟨_, _, _, rfl | rfl⟩ | ⟨_, _, _, rfl⟩ := Step.takeYields last <;> rfl
    rw [leaves, Step.takeNodes last, List.filter_cons, inner]
    exact ih first

theorem accessorRun {input : Param} (same : input.ty = full.ty) (s : Supply) :
    (searched.accessor full input).run s = match pathTo searched full with
      | .ok path =>
        let followed := (path.follow (.parameter s.node input)).run { s with node := s.node + 1 }
        (.ok ⟨[input], followed.1⟩, followed.2)
      | .error err => (.error err, s) := by
  refine (Build.ensureThen _ s).trans ?_
  rw [if_pos (beq_iff_eq.mpr same)]
  cases pathTo searched full <;> rfl

theorem accessorFollows {input : Param} {l : Lambda} (h : yields (searched.accessor full input) l) :
    ∃ path body i, pathTo searched full = .ok path ∧ l = ⟨[input], body⟩ ∧
      yields (Path.follow path (.parameter i input)) body := by
  obtain ⟨_, _, h⟩ := ofBind h
  obtain ⟨path, found, h⟩ := ofBind h
  obtain ⟨_, start, h⟩ := ofBind h
  obtain ⟨body, follows, last⟩ := ofBind h
  obtain ⟨i, _, made⟩ := ofBind (ofLiftT start)
  cases ofPure made
  exact ⟨path, body, i, ofExcept found, (ofPure last).symm, ofLiftT follows⟩

theorem Descends.makeRun {n : Expr} (down : Descends full path n) (start : Expr) (same : start.ty = full.ty) (t : Supply) :
    ∃ e u, (path.follow start).run t = (e, u) ∧ (path.make start).run t = (.ok e, u) ∧ e.ty = path.typeFrom full.ty :=
  ⟨_, _, rfl, Path.Passes.makeRun (same ▸ down.passes), same ▸ Path.followTy ⟨t, _, rfl⟩⟩

theorem accessorFound {input : Param} {whole : Expr} {s : Supply} (made : full.Made) (same : input.ty = full.ty)
    (last : (places searched full).getLast? = some (path, whole)) :
    ∃ body s', (searched.accessor full input).run s = (.ok ⟨[input], body⟩, s') ∧
      (path.make (.parameter s.node input)).run { s with node := s.node + 1 } = (.ok body, s') ∧
      body.ty.assignable searched.ty = true ∧ body.leaves = [.parameter s.node input] := by
  have down := (placesLand (List.mem_of_getLast? last)).descends
  obtain ⟨body, s', follows, makes, ty⟩ := down.makeRun (.parameter s.node input) same { s with node := s.node + 1 }
  have outcome : (searched.accessor full input).run s = _ := accessorRun same s
  rw [pathToEnds, last] at outcome
  simp only [follows] at outcome
  exact ⟨body, s', outcome, makes, ty ▸ (down.assignable made.fitting).2, followLeaves ⟨_, _, follows⟩⟩

theorem accessorRefused {input : Param} {s : Supply} (same : input.ty = full.ty) (nowhere : places searched full = []) :
    ∃ err, (searched.accessor full input).run s = (.error err, s) ∧
      ((∃ stop top u, (stops searched full).head? = some stop ∧
        (stop.1.make (.parameter s.node input)).run { s with node := s.node + 1 } = (.ok top, u) ∧
        (stop.2.make top).run u = (.error err, u)) ∨
      stops searched full = [] ∧ err = .noPath full.text searched.text) := by
  have outcome : (searched.accessor full input).run s = _ := accessorRun same s
  rw [pathToEnds, nowhere] at outcome
  cases first : (stops searched full).head? with
  | some stop =>
    obtain ⟨⟨n, down⟩, refused⟩ := stopsRefuse (List.mem_of_head? first)
    obtain ⟨top, u, _, makes, ty⟩ := down.makeRun (.parameter s.node input) same { s with node := s.node + 1 }
    rw [first] at outcome
    refine ⟨_, outcome, .inl ⟨stop, top, u, rfl, makes, ?_⟩⟩
    rw [Step.makeRun, ty, refused]
    rfl
  | none =>
    rw [first] at outcome
    exact ⟨_, outcome, .inr ⟨List.head?_eq_none_iff.mp first, rfl⟩⟩

/-- The accessor of a node is found exactly if a way down ends at it. Its body is made of the steps to the last of its
places, it has a type to which the node may be assigned, and the parameter is its only leaf. Otherwise the error is that
of the first step that cannot be made, or there is no such step. -/
theorem accessorArrives {searched full : Expr} {input : Param} (made : full.Made) (same : input.ty = full.ty)
    (s : Supply) :
    let run := (searched.accessor full input).run s
    let start := Expr.parameter s.node input
    let t := { s with node := s.node + 1 }
    ((∃ l s', run = (.ok l, s')) ↔ places searched full ≠ []) ∧
      (∀ l s', run = (.ok l, s') → ∃ place body, (places searched full).getLast? = some place ∧ l = ⟨[input], body⟩ ∧
        (place.1.make start).run t = (.ok body, s') ∧ body.ty.assignable searched.ty = true ∧ body.leaves = [start]) ∧
      ∀ err s', run = (.error err, s') →
        (∃ stop top u, (stops searched full).head? = some stop ∧ (stop.1.make start).run t = (.ok top, u) ∧
          (stop.2.make top).run u = (.error err, u)) ∨
        stops searched full = [] ∧ err = .noPath full.text searched.text := by
  intro run start t
  cases last : (places searched full).getLast? with
  | some place =>
    obtain ⟨body, s₁, found, makes, fits, only⟩ := accessorFound made same last
    have some : places searched full ≠ [] := List.ne_nil_of_mem (List.mem_of_getLast? last)
    refine ⟨iff_of_true ⟨_, _, found⟩ some, fun l s' ran => ?_, fun err s' ran => ?_⟩
    · cases found.symm.trans ran
      exact ⟨place, body, rfl, rfl, makes, fits, only⟩
    · cases found.symm.trans ran
  | none =>
    have nowhere : places searched full = [] := List.getLast?_eq_none_iff.mp last
    obtain ⟨err, refused, why⟩ := accessorRefused same nowhere
    have never : ¬ ∃ l s', run = (.ok l, s') := fun ⟨_, _, ran⟩ => by cases refused.symm.trans ran
    refine ⟨iff_of_false never (not_not_intro nowhere), fun l s' ran => absurd ⟨l, s', ran⟩ never, fun err' s' ran => ?_⟩
    cases refused.symm.trans ran
    exact why

/- The first member holds the reference behind a conversion that cannot be taken back, the second one holds it plainly. -/
theorem accessorArrivesPastErased :
    let slot : Member := ⟨"slot", "Holder", .int, .field⟩
    let last : Member := ⟨"last", "Holder", .int, .method⟩
    let reference := Expr.reference 0 ⟨0, "s", .int⟩
    let shape := ObjectOf.ofShape [("b", Ty.int)]
    let erased := Expr.convert 2 .any false (.construct 1 shape shape.members [reference])
    let type : ObjectType := ⟨"Holder", [slot, last], false⟩
    let full := Expr.construct 3 type type.members [erased, reference]
    let input : Param := ⟨0, "p", full.ty⟩
    let run := (reference.accessor full input).run ⟨4, 1, 1⟩
    let start := Expr.parameter 4 input
    full.Made ∧ input.ty = full.ty ∧ (places reference full).map Prod.fst = [[.read last]] ∧
      (stops reference full).map Prod.fst = [[.read slot]] ∧
      ((∃ l s', run = (.ok l, s')) ↔ places reference full ≠ []) ∧
      (∀ l s', run = (.ok l, s') → ∃ place body, (places reference full).getLast? = some place ∧ l = ⟨[input], body⟩ ∧
        (place.1.make start).run ⟨5, 1, 1⟩ = (.ok body, s') ∧ body.ty.assignable reference.ty = true ∧
        body.leaves = [start]) ∧
      ∀ err s', run = (.error err, s') →
        (∃ stop top u, (stops reference full).head? = some stop ∧ (stop.1.make start).run ⟨5, 1, 1⟩ = (.ok top, u) ∧
          (stop.2.make top).run u = (.error err, u)) ∨
        stops reference full = [] ∧ err = .noPath full.text reference.text := by
  intro slot last reference shape erased type full input run start
  have referred : reference.Made := .reference ⟨⟨0, 0, 1⟩, ⟨1, 0, 1⟩, rfl⟩
  have held : ∀ f ∈ [("b", reference)], f.2.Made := List.forall_mem_singleton.mpr referred
  have inner : (Expr.construct 1 shape shape.members [reference]).Made := .anonymous held ⟨⟨1, 0, 1⟩, ⟨2, 0, 1⟩, rfl⟩
  have converts : yields (Build.convert false (.construct 1 shape shape.members [reference]) .any) erased :=
    ⟨⟨2, 0, 1⟩, ⟨3, 0, 1⟩, rfl⟩
  have each : ∀ e ∈ [erased, reference], e.Made :=
    List.forall_mem_cons.mpr ⟨.convert inner converts, List.forall_mem_singleton.mpr referred⟩
  have constructs : yields (Build.construct type type.members [erased, reference]) full :=
    ⟨⟨3, 0, 1⟩, ⟨4, 0, 1⟩, rfl⟩
  have made : full.Made := .construct each constructs
  exact ⟨made, rfl, by decide +kernel, by decide +kernel, accessorArrives made rfl ⟨4, 1, 1⟩⟩

end Expr

end SymbolicQuery
