import SymbolicQuery.Proofs.Remembering

/-! Which references of a copy are to its own sources. A context that was used before gives remembered images, and these
refer to no source of the copy. So a copy refers to its own sources throughout exactly if the context remembers
nothing that refers to a source of the query. -/
namespace SymbolicQuery
open Results SymbolicQuery.Expr

def Renaming.Forgets (r : Renaming) (among : List Source) (e : Expr) : Prop :=
  ∀ n ∈ e.nodes, (r.known? n).isSome = true → ∀ o ∈ n.sources, ∀ p ∈ among, o.id ≠ p.id

instance {r : Renaming} {among : List Source} {e : Expr} : Decidable (r.Forgets among e) :=
  inferInstanceAs (Decidable (∀ n ∈ e.nodes, _ → ∀ o ∈ n.sources, ∀ p ∈ among, o.id ≠ p.id))

namespace Renaming
variable {r : Renaming} {among : List Source} {e : Expr}

theorem forgetsIff (absent : r.known? e = none) : r.Forgets among e ↔ ∀ c ∈ e.parts, r.Forgets among c := by
  unfold Forgets
  constructor
  · exact fun forgets c inside n node => forgets n (memNodes.mpr (.inr ⟨c, inside, node⟩))
  · intro each n node known
    rcases memNodes.mp node with rfl | ⟨c, inside, node⟩
    · rw [absent] at known
      cases known
    · exact each c inside n node known

end Renaming

namespace ResultOperator
variable {upon : Source → Expr → Prop} {closed : Expr → Prop} {src final : Source} {op : ResultOperator}
  {ops : List ResultOperator} {e : Expr}

theorem countsExpr (single : op.source? = none) (inside : e ∈ op.exprs) : op = .take e ∨ op = .skip e := by
  cases op with
  | group => cases single
  | take n =>
    cases List.mem_singleton.mp inside
    exact .inl rfl
  | skip n =>
    cases List.mem_singleton.mp inside
    exact .inr rfl
  | distinct | count | first => cases inside

theorem Stacked.exprs (stacked : Stacked upon closed src ops final) (inside : e ∈ ops.flatMap exprs) :
    (∃ o ∈ src :: ops.filterMap source?, upon o e) ∨ closed e := by
  induction stacked with
  | nil => cases inside
  | group keyOver elementOver _ _ ih =>
    rcases List.mem_append.mp inside with here | later
    · refine .inl ⟨_, List.mem_cons_self, ?_⟩
      rcases List.mem_cons.mp here with rfl | here
      · exact keyOver
      · cases List.mem_singleton.mp here
        exact elementOver
    · exact (ih later).imp (fun ⟨o, own, known⟩ => ⟨o, List.mem_cons_of_mem _ own, known⟩) id
  | other single count _ ih =>
    rw [List.filterMap_cons_none single]
    rcases List.mem_append.mp inside with here | later
    · exact .inr (count e (countsExpr single here))
    · exact ih later

end ResultOperator

namespace Query
open Renamed Renaming ResultOperator
variable {q q' : Query} {r : Renaming} {s : Supply} {st st' u u' : Renaming × Supply} {mapped : List (Nat × Source)}
  {e e' : Expr} {o o' : Source}

def Replaces (q q' : Query) (o o' : Source) : Prop := ∀ pair ∈ q.sources.zip q'.sources, o.id = pair.1.id → o' = pair.2

instance : DecidableRel (q.Replaces q') := fun o o' =>
  inferInstanceAs (Decidable (∀ pair ∈ q.sources.zip q'.sources, o.id = pair.1.id → o' = pair.2))

/-- What an expression becomes refers to the copy's own sources exactly if nothing in it that refers to the query's was
remembered. -/
def Turned (q q' : Query) (r : Renaming) (e e' : Expr) : Prop :=
  e.sources.length = e'.sources.length ∧ (List.Forall₂ (q.Replaces q') e.sources e'.sources ↔ r.Forgets q.sources e)

structure Turning (q q' : Query) (r : Renaming) (mapped : List (Nat × Source)) (u : Renaming × Supply) : Prop where
  known {e e' : Expr} : r.known? e = some e' → u.1.known? e = some e'
  images {e e' : Expr} : (e, e') ∈ u.1.images → q.Turned q' r e e'
  sources : u.1.sources = mapped

theorem Turning.fresh (turning : q.Turning q' r mapped u) (absent : u.1.known? e = none) : r.known? e = none := by
  cases found : r.known? e with
  | none => rfl
  | some e' => cases absent.symm.trans (turning.known found)

theorem Turning.add (turning : q.Turning q' r mapped (r', s)) (o o' : Source) {t : Supply} :
    q.Turning q' r ((o.id, o') :: mapped) (r'.add o o', t) where
  known := turning.known
  images := turning.images
  sources := congrArg _ turning.sources

theorem turnedRebuilt (absent : r.known? e = none) (other : e.asSource? = none)
    (rebuilt : Rebuilt (q.Turned q' r) e e') : q.Turned q' r e e' := by
  have lengths := rebuilt.parts.imp fun _ _ turned => turned.1
  have counts : (e.parts.map fun c => c.sources.length) = e'.parts.map fun c => c.sources.length := by
    rw [← List.forall₂_eq_eq_eq]
    exact List.forall₂_map_left_iff.mpr (List.forall₂_map_right_iff.mpr lengths)
  unfold Turned
  rw [sourcesParts e, sourcesParts e', rebuilt.asSource, other, forgetsIff absent]
  refine ⟨?_, (forallFlat lengths).trans (forallIff (rebuilt.parts.imp fun _ _ turned => turned.2))⟩
  simp only [Option.toList_none, List.nil_append, List.length_flatMap]
  exact congrArg List.sum counts

theorem turningCarries : Carries (q.Turning q' r mapped)
    (fun e => ∀ o ∈ e.sources, q.Replaces q' o ((mapped.lookup o.id).getD o)) (q.Turned q' r) where
  part replaces inside o refers := replaces o (partSources inside refers)
  node turning := ⟨turning.known, turning.images, turning.sources⟩
  known turning _ known := turning.images (lookupInside known)
  reference {r' s i o} j turning replaces absent := by
    have image := replaces o List.mem_cons_self
    rw [← turning.sources] at image
    refine ⟨rfl, fun _ => (forgetsIff (turning.fresh absent)).mpr fun c inside => ?_, fun _ => .cons image .nil⟩
    cases inside
  rebuilt turning _ absent other made := turnedRebuilt (turning.fresh absent) other made
  note {r₁ r₂ s t e e'} before _ absent turning made := by
    refine ⟨fun {f f'} known => ?_, fun {f f'} inside => ?_, noteSources.trans turning.sources⟩
    · unfold note
      split
      · exact turning.known known
      · refine lookupPut.trans ((if_neg ?_).trans (turning.known known))
        rintro rfl
        cases (before.fresh absent).symm.trans known
    · rcases noteInside inside with before | ⟨rfl, rfl⟩
      · exact turning.images before
      · exact made

theorem Turning.renames {es es' : List Expr} (turning : q.Turning q' r mapped u)
    (replaces : ∀ e ∈ es, ∀ o ∈ e.sources, q.Replaces q' o ((mapped.lookup o.id).getD o)) (renames : Renames es u es' u') :
    q.Turning q' r mapped u' ∧ List.Forall₂ (q.Turned q' r) es es' :=
  renames.keeps turning fun e inside {_ _ _} turning renamed => turningCarries.rename turning (replaces e inside) renamed

theorem Turning.supplies {t : Supply} (turning : q.Turning q' r mapped (r', s)) : q.Turning q' r mapped (r', t) :=
  ⟨turning.known, turning.images, turning.sources⟩

theorem heldTurning (held : st.1.Held st.2.source) (lengths : q.sources.length = q'.sources.length)
    (fresh : ∀ o ∈ q'.sources, st.2.source ≤ o.id) : q.Turning q' st.1 st.1.sources st := by
  refine ⟨id, fun {e e'} inside => ?_, rfl⟩
  have below := held.images inside
  refine ⟨below.length_eq, fun replaces n node _ o refers => ?_, fun forgets => ?_⟩
  · have apart : List.Forall₂ (fun o _ => (∀ p ∈ q.sources, o.id ≠ p.id) ∧ True) e.sources e'.sources :=
      List.Forall₂.mp (fun o o' replaces given => ⟨fun p own same => by
        rw [← List.map_fst_zip (Nat.le_of_eq lengths)] at own
        obtain ⟨⟨_, p'⟩, pair, rfl⟩ := List.mem_map.mp own
        cases replaces _ pair same
        exact absurd given (Nat.not_lt.mpr (fresh _ (List.of_mem_zip pair).2)), trivial⟩) replaces below
    exact ((List.forall₂_and_left _ _).mp apart).1 o (sourcesWithin node refers)
  · have known : (st.1.known? e).isSome = true := by
      cases found : st.1.known? e with
      | none => exact absurd inside (lookupAbsent found)
      | some _ => rfl
    exact forallMono below fun o refers _ _ pair inside same =>
      absurd same (forgets e (selfNode e) known o refers _ (List.of_mem_zip inside).1)

variable {first : Supply} {item : Expr} {last src src' : Source}

theorem Layers.once (layers : q.Layers first item s last) (lengths : q.sources.length = q'.sources.length)
    {p p' : Source} (pair : (src, src') ∈ q.sources.zip q'.sources) (pair' : (p, p') ∈ q.sources.zip q'.sources)
    (same : src.id = p.id) : src' = p' := by
  have once : ((q.sources.zip q'.sources).map fun pair => pair.1.id).Nodup := by
    have sources : (q.sources.zip q'.sources).map (fun pair => pair.1.id) = q.sources.map Source.id := by
      conv_rhs => rw [← List.map_fst_zip (Nat.le_of_eq lengths), List.map_map]
      rfl
    rw [sources]
    exact List.pairwise_map.mpr (layers.operators.sources.1.imp fun less => Nat.ne_of_lt less)
  exact congrArg Prod.snd (List.inj_on_of_nodup_map once pair pair' same)

theorem Layers.replaces (layers : q.Layers first item s last) (lengths : q.sources.length = q'.sources.length)
    (pair : (src, src') ∈ q.sources.zip q'.sources) (known : Over first src o) :
    q.Replaces q' o ((((src.id, src') :: mapped).lookup o.id).getD o) := by
  rintro ⟨p, p'⟩ pair' same
  rcases known with rfl | old
  · rw [List.lookup_cons_self]
    exact layers.once lengths pair pair' same
  · have newer := (layers.ground (le_refl s)).newer (List.of_mem_zip pair').1
    exact absurd (same ▸ old) (Nat.not_lt.mpr newer)

theorem Layers.replacesBefore (layers : q.Layers first item s last) (before : e.Before first) :
    ∀ o ∈ e.sources, q.Replaces q' o ((mapped.lookup o.id).getD o) := by
  intro o refers pair inside same
  have newer := (layers.ground (le_refl s)).newer (List.of_mem_zip inside).1
  exact absurd (same ▸ issuedSources before o refers) (Nat.not_lt.mpr newer)

theorem Layers.rows (layers : q.Layers first item s last) : ∀ e ∈ q.clauses.flatMap Clause.exprs ++ [q.selector],
    e.Every (Issued s (Over first q.source)) := by
  intro e inside
  rcases List.mem_append.mp inside with clause | selector
  · obtain ⟨c, member, inside⟩ := List.mem_flatMap.mp clause
    exact layers.clauses c member e inside
  · cases List.mem_singleton.mp selector
    exact layers.selector

theorem Layers.operatorsTurn (layers : q.Layers first item s last) (lengths : q.sources.length = q'.sources.length)
    {ops ops' : List ResultOperator} {final : Source}
    (stacked : Stacked (fun r e => e.Every (Issued s (Over first r))) (Before first) src ops final)
    (turning : q.Turning q' r ((src.id, src') :: mapped) u) (pair : (src, src') ∈ q.sources.zip q'.sources)
    (pairs : ∀ pair ∈ (ops.filterMap source?).zip (ops'.filterMap source?), pair ∈ q.sources.zip q'.sources)
    (operates : Operates ops u ops' u') :
    List.Forall₂ (q.Turned q' r) (ops.flatMap ResultOperator.exprs) (ops'.flatMap ResultOperator.exprs) := by
  -- the mapping grows with the layers: each grouping adds its source for the operators behind it
  induction stacked generalizing src' mapped u ops' with
  | nil =>
    cases operates
    exact .nil
  | group keyIssued elementIssued newer _ ih =>
    cases operates with
    | @cons _ _ _ _ u _ _ head rest =>
      obtain ⟨r', s'⟩ := u
      rcases operatorRenames head with ⟨_, _, _, _, key', element', r', s', same, rfl, renames, rfl⟩ | ⟨none, _, _⟩
      · cases same
        obtain ⟨later, turned⟩ := turning.supplies.renames (fun e inside o refers => layers.replaces lengths pair (by
          simp only [List.mem_cons, List.not_mem_nil, or_false] at inside
          rcases inside with rfl | rfl
          · exact issuedSources keyIssued o refers
          · exact issuedSources elementIssued o refers)) renames
        obtain ⟨here, others⟩ := List.forall_mem_cons.mp pairs
        exact List.rel_append turned (ih (later.add _ _) here others rest)
      · cases none
  | @other _ _ op _ single count _ ih =>
    cases operates with
    | cons head rest =>
      rcases operatorRenames head with ⟨_, _, _, _, _, _, _, _, rfl, _⟩ | ⟨_, single', renames⟩
      · cases single
      · have old : ∀ e ∈ op.exprs, e.Before first := fun e inside => count e (countsExpr single inside)
        obtain ⟨turning, turned⟩ := turning.renames (fun e inside => layers.replacesBefore (old e inside)) renames
        rw [List.filterMap_cons_none single, List.filterMap_cons_none single'] at pairs
        exact List.rel_append turned (ih turning pair pairs rest)

theorem exprsEq (q : Query) : q.exprs = q.origin :: (q.clauses.flatMap Clause.exprs ++ [q.selector] ++
    q.operators.flatMap ResultOperator.exprs) := by
  simp [exprs]

theorem Layers.turned (layers : q.Layers first item s last) (reached : Reached st) (h : leads q.renamed st q' st') :
    List.Forall₂ (q.Turned q' st.1) q.exprs q'.exprs := by
  obtain ⟨_, lengths, fresh⟩ := copySources h
  obtain ⟨r, s₁, u, origin, _, renames, operates⟩ := copyRenames h
  have start := heldTurning reached.held lengths fresh
  obtain ⟨turning, originTurned⟩ := turningCarries.rename start (layers.replacesBefore layers.origin) origin
  have pair : (q.source, q'.source) ∈ q.sources.zip q'.sources := List.mem_cons_self
  obtain ⟨turning, turned⟩ := (turning.add q.source q'.source).renames (fun e inside o refers =>
    layers.replaces lengths pair (issuedSources (layers.rows e inside) o refers)) renames
  rw [exprsEq q, exprsEq q']
  exact .cons originTurned (List.rel_append turned (layers.operatorsTurn lengths layers.operators turning pair
    (fun pair inside => List.mem_cons_of_mem _ inside) operates))

theorem Layers.before (layers : q.Layers first item s last) : ∀ e ∈ q.exprs, e.Before s := by
  have old : ∀ {e : Expr}, e.Before first → e.Before s := fun before =>
    everyMono before layers.start fun _ old => Nat.lt_of_lt_of_le old layers.start.2.2
  have given : ∀ {e : Expr} {o : Source}, o ∈ q.sources → e.Every (Issued s (Over first o)) → e.Before s :=
    fun own issued => everyMono issued (le_refl s) fun r known => by
      rcases known with rfl | old
      · exact (layers.ground (le_refl s)).given own
      · exact Nat.lt_of_lt_of_le old layers.start.2.2
  intro e inside
  rw [exprsEq] at inside
  rcases List.mem_cons.mp inside with rfl | inside
  · exact old layers.origin
  rcases List.mem_append.mp inside with row | operator
  · exact given List.mem_cons_self (layers.rows e row)
  · rcases layers.operators.exprs operator with ⟨o, own, issued⟩ | before
    · exact given own issued
    · exact old before

/-- A copy of the query of a chain has a source for each of the query's, whatever was done with its context before. The
references in an expression of the copy are to those exactly if the context remembers no node of the expression that
refers to a source of the query. Afterwards the context is again one that copies are made with. -/
theorem copyReplacesIff {chain : Expr} {n n' : Nat} {s₁ : Supply} (before : chain.Before s)
    (built : ((assemble chain).run.run n).run s = ((.ok q, n'), s₁)) (reached : Reached st) (later : s₁ ≤ st.2)
    (copied : (q.renamed.run st.1).run st.2 = ((q', st'.1), st'.2)) :
    List.Forall₂ (fun op op' => op.source?.isSome = op'.source?.isSome) q.operators q'.operators ∧
      List.Forall₂ (fun e e' => List.Forall₂ (q.Replaces q') e.sources e'.sources ↔ st.1.Forgets q.sources e)
        q.exprs q'.exprs ∧ Reached st' := by
  obtain ⟨item, last, layers⟩ := assembleLayers before built
  exact ⟨(copySources copied).1, (layers.turned reached copied).imp fun _ _ turned => turned.2,
    (copyReached reached ((layers.later later).before) copied).1⟩

/- A context with which another query of the same chain was copied. -/
theorem copyReplacesIffOfTwo : ∃ chain q s n t q₀ n₀ u q₀' st q' st', chain.Before s ∧
    ((assemble chain).run.run 0).run s = ((.ok q, n), t) ∧ ((assemble chain).run.run 0).run t = ((.ok q₀, n₀), u) ∧
    (q₀.renamed.run .empty).run u = ((q₀', st.1), st.2) ∧ Reached st ∧ t ≤ st.2 ∧ st.1.images ≠ [] ∧
    (q.renamed.run st.1).run st.2 = ((q', st'.1), st'.2) ∧ q.operators.length = 2 ∧
    (∀ e ∈ q.exprs, st.1.Forgets q.sources e) ∧
    List.Forall₂ (fun op op' => op.source?.isSome = op'.source?.isSome) q.operators q'.operators ∧
      List.Forall₂ (fun e e' => List.Forall₂ (q.Replaces q') e.sources e'.sources ↔ st.1.Forgets q.sources e)
        q.exprs q'.exprs ∧ Reached st' := by
  refine readMeeting [] pairOfWholes
    "$.where(w => w > 0).select(x => new \x7b a = x, b = x + 1 \x7d).group_by(y => y.b).group_by(g => g.key)" ⟨1, 0, 0⟩
    (fun chain q s t =>
      let again := ((assemble chain).run.run 0).run t
      again.1.1.toOption.any fun q₀ =>
        let context := (q₀.renamed.run .empty).run again.2
        decide (chain.Before s ∧ chain.Before t ∧ context.1.2.images ≠ [] ∧ q.operators.length = 2 ∧
          ∀ e ∈ q.exprs, context.1.2.Forgets q.sources e))
    (by decide +kernel) fun chain q n s t built meets => ?_
  rcases built₀ : ((assemble chain).run.run 0).run t with ⟨⟨result, n₀⟩, u⟩
  rw [built₀] at meets
  cases result with
  | error => cases meets
  | ok q₀ =>
    obtain ⟨before, before₀, met, two, forgets⟩ := of_decide_eq_true meets
    obtain ⟨item, last, layers⟩ := assembleLayers before₀ built₀
    have copied : leads q₀.renamed (.empty, u) _
      (((q₀.renamed.run .empty).run u).1.2, ((q₀.renamed.run .empty).run u).2) := rfl
    obtain ⟨reached, later⟩ := copyReached .start layers.before copied
    exact ⟨chain, q, s, n, t, q₀, n₀, u, _, (_, _), _, (_, _), before, built, built₀, rfl, reached,
      le_trans layers.start later, met, rfl, two, forgets,
      copyReplacesIff before built reached (le_trans layers.start later) rfl⟩

/- A query that was copied before with the same context: the selector still refers to the source of the first copy,
and the second copy does not run. -/
theorem copyClings : ∃ (chain : Expr) (q : Query) (s : Supply) (n : Nat) (t : Supply) (q₁ : Query)
    (st : Renaming × Supply) (q₂ : Query) (st' : Renaming × Supply), chain.Before s ∧
    ((assemble chain).run.run 0).run s = ((.ok q, n), t) ∧
    (q.renamed.run .empty).run t = ((q₁, st.1), st.2) ∧ (q.renamed.run st.1).run st.2 = ((q₂, st'.1), st'.2) ∧
    q₂.selector.sources = [q₁.source] ∧ q₁.source.id ≠ q₂.source.id ∧
    ¬ List.Forall₂ (fun e e' => List.Forall₂ (q.Replaces q₂) e.sources e'.sources) q.exprs q₂.exprs ∧
    (q₁.execute.run st'.2).1.isOk = true ∧ (q₂.execute.run st'.2).1 = .error (.unresolved "x" (.notInItem "[x]")) := by
  refine readMeeting [] pairOfWholes "$.where(x => x > 0)" ⟨1, 0, 0⟩
    (fun chain q s t =>
      let first := (q.renamed.run .empty).run t
      let next := (q.renamed.run first.1.2).run first.2
      decide (chain.Before s ∧ next.1.1.selector.sources = [first.1.1.source] ∧
        first.1.1.source.id ≠ next.1.1.source.id ∧
        ¬ List.Forall₂ (fun e e' => List.Forall₂ (q.Replaces next.1.1) e.sources e'.sources) q.exprs next.1.1.exprs ∧
        (first.1.1.execute.run next.2).1.isOk = true ∧
        refusal? (next.1.1.execute.run next.2).1 = some (.unresolved "x" (.notInItem "[x]"))))
    (by decide +kernel) fun chain q n s t built meets => ?_
  obtain ⟨before, clings, other, apart, succeeds, refused⟩ := of_decide_eq_true meets
  exact ⟨chain, q, s, n, t, _, (_, _), _, (_, _), before, built, rfl, rfl, clings, other, apart, succeeds,
    (refusalRun refused).1⟩

end Query
end SymbolicQuery
