import Mathlib.Data.List.Nodup
import SymbolicQuery.Proofs.Mirroring
import SymbolicQuery.Proofs.Renaming
import SymbolicQuery.Proofs.Settling

/-! Copies of assembled queries. A copy corresponds to its query expression by expression, under new sources for
the old ones, so it has the same outcomes; and no source of the query is left in it. -/
namespace SymbolicQuery
open Results SymbolicQuery.Expr

def ResultOperator.exprs : ResultOperator → List Expr
  | group _ _ key element => [key, element]
  | take n | skip n => [n]
  | _ => []

namespace Query

def sources (q : Query) : List Source := q.source :: q.operators.filterMap ResultOperator.source?

def exprs (q : Query) : List Expr :=
  q.origin :: q.clauses.flatMap Clause.exprs ++ q.selector :: q.operators.flatMap ResultOperator.exprs

theorem Related.exprs {R : Expr → Expr → Prop} {S : Source → Source → Prop} {q q' : Query} {e' : Expr}
    (related : q.Related R S q') (inside : e' ∈ q'.exprs) :
    e' = q.origin ∨ (∃ e, R e e') ∨ ∃ op ∈ q.operators, op = .take e' ∨ op = .skip e' := by
  rcases List.mem_cons.mp inside with rfl | inside
  · exact .inl related.origin
  refine .inr ?_
  rcases List.mem_append.mp inside with clause | inside
  · obtain ⟨c', member, inside⟩ := List.mem_flatMap.mp clause
    obtain ⟨c, _, clauses⟩ := partFrom related.clauses member
    cases clauses with
    | filter predicate =>
      cases List.mem_singleton.mp inside
      exact .inl ⟨_, predicate⟩
    | sort keys =>
      obtain ⟨k', member, rfl⟩ := List.mem_map.mp inside
      obtain ⟨k, _, key, _⟩ := partFrom keys member
      exact .inl ⟨_, key⟩
  rcases List.mem_cons.mp inside with rfl | inside
  · exact .inl ⟨_, related.selector⟩
  · obtain ⟨op', member, inside⟩ := List.mem_flatMap.mp inside
    obtain ⟨op, operator, operators⟩ := partFrom related.operators member
    cases operators with
    | group _ keys elements =>
      rcases List.mem_cons.mp inside with rfl | inside
      · exact .inl ⟨_, keys⟩
      · cases List.mem_singleton.mp inside
        exact .inl ⟨_, elements⟩
    | take =>
      cases List.mem_singleton.mp inside
      exact .inr ⟨_, operator, .inl rfl⟩
    | skip =>
      cases List.mem_singleton.mp inside
      exact .inr ⟨_, operator, .inr rfl⟩
    | distinct | count | first => cases inside

end Query

namespace ResultOperator
variable {upon : Source → Expr → Prop} {closed : Expr → Prop} {r t : Source} {ops : List ResultOperator}

theorem Stacked.sources (stacked : Stacked upon closed r ops t) :
    (r :: ops.filterMap source?).Pairwise (fun o p => o.id < p.id) ∧ ∀ o ∈ r :: ops.filterMap source?, o.id ≤ t.id := by
  induction stacked with
  | nil => exact ⟨List.pairwise_singleton _ _, fun o inside => by cases List.mem_singleton.mp inside; exact Nat.le_refl _⟩
  | @group r t name id key element ops _ _ newer _ ih =>
    obtain ⟨apart, within⟩ := ih
    obtain ⟨first, later⟩ := List.forall_mem_cons.mp within
    have beyond : ∀ o ∈ groupSource name id key element :: ops.filterMap source?, r.id < o.id :=
      List.forall_mem_cons.mpr ⟨newer, fun o inside => Nat.lt_trans newer ((List.pairwise_cons.mp apart).1 o inside)⟩
    exact ⟨List.pairwise_cons.mpr ⟨beyond, apart⟩,
      List.forall_mem_cons.mpr ⟨Nat.le_of_lt (Nat.lt_of_lt_of_le newer first), within⟩⟩
  | other single _ _ ih =>
    rw [List.filterMap_cons_none single]
    exact ih

theorem Stacked.counts (stacked : Stacked upon closed r ops t) {op : ResultOperator} (inside : op ∈ ops) {n : Expr}
    (either : op = .take n ∨ op = .skip n) : closed n := by
  induction stacked with
  | nil => cases inside
  | group _ _ _ _ ih =>
    rcases List.mem_cons.mp inside with rfl | later
    · rcases either with same | same <;> cases same
    · exact ih later
  | other _ count _ ih =>
    rcases List.mem_cons.mp inside with rfl | later
    · exact count n either
    · exact ih later

end ResultOperator

namespace Ground
open ResultOperator
variable {G : Ground} {st st' : Renaming × Supply} {src : Source} {e e' : Expr}

theorem Tracks.empty : G.Tracks (.empty, G.base) where
  later := le_refl _
  keys none := by cases none
  fresh none := by cases none
  apart none := by cases none
  shape none := by cases none
  sources none := by cases none
  sourcesApart none := by cases none

theorem Tracks.left (tracks : G.Tracks st) (image : G.Image st.1 e e') {i : Nat} {o p : Source}
    (refers : .reference i o ∈ e'.nodes) (own : G.own p) : o.id ≠ p.id := by
  have newer : G.first.source ≤ p.id := G.newer own
  have given : p.id < G.issued.source := G.given own
  obtain ⟨n, _, imageNode⟩ := partFrom (tracks.correspondence.nodes image) refers
  rcases tracks.correspondence.source imageNode with ⟨_, none⟩ | ⟨o₀, o', _, some, sources⟩
  · cases none
  · cases some
    rcases (tracks.image sources).2 with ⟨_, started⟩ | ⟨before, rfl⟩
    · exact Nat.ne_of_gt (Nat.lt_of_lt_of_le given (Nat.le_trans G.later.2.2 started))
    · exact Nat.ne_of_lt (Nat.lt_of_lt_of_le before newer)

/-- The state in which expressions over one source are renamed, and none over later ones yet. -/
structure Stage (G : Ground) (src : Source) (st : Renaming × Supply) : Prop where
  tracks : G.Tracks st
  own : G.own src
  named : st.1.lookup? src.id ≠ none
  past {id : Nat} {o : Source} : (id, o) ∈ st.1.sources → id ≤ src.id

theorem Tracks.next {r : Renaming} {s : Supply} {o : Source} (tracks : G.Tracks (r, s)) (o' : Source) (own : G.own o)
    (newest : ∀ id p, (id, p) ∈ r.sources → id < o.id) (ty : o'.itemType = o.itemType)
    (started : G.base.source ≤ o'.id) (given : o'.id < s.source) (new : ∀ id p, (id, p) ∈ r.sources → p.id ≠ o'.id) :
    G.Stage o (r.add o o', s) ∧ r ≤ r.add o o' ∧ (r.add o o').lookup? o.id = some o' := by
  obtain ⟨tracks, later, found⟩ := tracks.add o' own
    (fun p inside => absurd (newest o.id p inside) (Nat.lt_irrefl _)) ty started given new
  refine ⟨⟨tracks, own, fun none => ?_, fun {id p} inside => ?_⟩, later, found⟩
  · cases found.symm.trans none
  · rcases List.mem_cons.mp inside with here | before
    · cases here
      exact Nat.le_refl _
    · exact Nat.le_of_lt (newest id p before)

theorem Stage.later (stage : G.Stage src st) (makes : G.Makes st e e' st') : G.Stage src st' := by
  refine ⟨makes.tracks, stage.own, ?_, fun {id o} inside => ?_⟩
  · unfold Renaming.lookup?
    rw [makes.sources]
    exact stage.named
  · rw [makes.sources] at inside
    exact stage.past inside

theorem untouchedBefore (before : e.Before G.first) : ¬ G.Touches e := by
  rintro ⟨i, o, inside, own⟩
  exact absurd (before _ inside).2 (Nat.not_lt.mpr (G.newer own))

theorem imageBefore (before : e.Before G.first) (image : G.Image st.1 e e') : e' = e := by
  rcases image.2 with ⟨touches, _⟩ | ⟨_, same⟩
  · exact absurd touches (untouchedBefore before)
  · exact same

theorem coversBefore (before : e.Before G.first) (later : G.first ≤ G.issued) : G.Covers e :=
  everyMono before later fun _ => .inr

theorem Stage.rename (stage : G.Stage src st) (issued : e.Every (Issued G.issued (Over G.first src)))
    (h : leads (Renamed.rename e) st e' st') : G.Makes st e e' st' := by
  refine stage.tracks.rename (everyMono issued (le_refl _) fun o known => ?_) (fun i o inside own => ?_) h
  · rcases known with rfl | old
    · exact .inl stage.own
    · exact .inr old
  · rcases (issued _ inside).2 with rfl | old
    · exact stage.named
    · exact absurd old (Nat.not_lt.mpr (G.newer own))

theorem Stage.clause {c c' : Clause} (stage : G.Stage src st)
    (issued : ∀ e ∈ c.exprs, e.Every (Issued G.issued (Over G.first src)))
    (h : leads (c.mapExprs Renamed.rename) st c' st') :
    G.Stage src st' ∧ st ≤ st' ∧ c.Related (G.Image st'.1) c' := by
  cases c with
  | filter predicate =>
    obtain ⟨e', u, renamed, h⟩ := Threaded.ofBind h
    obtain ⟨rfl, rfl⟩ := Threaded.ofPure h
    have makes := stage.rename (issued _ List.mem_cons_self) renamed
    exact ⟨stage.later makes, makes.later, .filter makes.image⟩
  | sort keys =>
    obtain ⟨keys', u, renamed, h⟩ := Threaded.ofBind h
    obtain ⟨rfl, rfl⟩ := Threaded.ofPure h
    obtain ⟨stage, later, images⟩ := (Threaded.ofMapM renamed).grows (I := G.Stage src)
      (S := fun st (k k' : SortKey) => G.Image st.1 k.key k'.key ∧ k.descending = k'.descending) stage
      (fun later _ _ both => ⟨both.1.mono (Prod.le_def.mp later).1, both.2⟩) fun k inside u k' v stage turns => by
        obtain ⟨e', w, renamed, h⟩ := Threaded.ofBind turns
        obtain ⟨rfl, rfl⟩ := Threaded.ofPure h
        have makes := stage.rename (issued _ (List.mem_map_of_mem inside)) renamed
        exact ⟨stage.later makes, makes.later, makes.image, rfl⟩
    exact ⟨stage, later, .sort images⟩

theorem Stage.group {name : String} {id : Nat} {key element : Expr} {op' : ResultOperator} (stage : G.Stage src st)
    (keyIssued : key.Every (Issued G.issued (Over G.first src)))
    (elementIssued : element.Every (Issued G.issued (Over G.first src))) (newer : src.id < id)
    (own : G.own (groupSource name id key element))
    (h : leads (ResultOperator.renamed (.group name id key element)) st op' st') :
    G.Stage (groupSource name id key element) st' ∧ st ≤ st' ∧
      ResultOperator.Related (G.Image st'.1) (G.SourceImage st'.1) (.group name id key element) op' := by
  obtain ⟨r, s⟩ := st
  obtain ⟨id', ⟨r₁, s₁⟩, numbered, h⟩ := Threaded.ofBind h
  obtain ⟨rfl, drawn⟩ := Threaded.ofLift numbered
  obtain ⟨rfl, rfl⟩ := Build.leadsSource drawn
  obtain ⟨key', ⟨r₂, s₂⟩, renamed, h⟩ := Threaded.ofBind h
  obtain ⟨element', ⟨r₃, s₃⟩, renamed', h⟩ := Threaded.ofBind h
  obtain ⟨_, ⟨r₄, s₄⟩, added, h⟩ := Threaded.ofBind h
  obtain ⟨rfl, rfl⟩ := Threaded.ofPure h
  cases added
  have grown : s ≤ { s with source := s.source + 1 } := ⟨Nat.le_refl _, Nat.le_refl _, Nat.le_succ _⟩
  -- the new source is drawn first, and known as an image only after the key and the element are renamed
  have start : G.Stage src (r, { s with source := s.source + 1 }) :=
    ⟨stage.tracks.supplies grown, stage.own, stage.named, stage.past⟩
  have keyMakes := start.rename keyIssued renamed
  have next := start.later keyMakes
  have makes := next.rename elementIssued renamed'
  have sources : r₃.sources = r.sources := makes.sources.trans keyMakes.sources
  have supply : s₃.source = s.source + 1 := makes.supply.trans keyMakes.supply
  have types : (groupSource name s.source key' element').itemType = (groupSource name id key element).itemType := by
    have keyTy := makes.tracks.correspondence.ty (keyMakes.image.mono makes.later.1)
    have elementTy := makes.tracks.correspondence.ty makes.image
    exact congrArg₂ Ty.grouping keyTy elementTy
  obtain ⟨reached, later, found⟩ := makes.tracks.next (groupSource name s.source key' element') own
    (fun i p inside => Nat.lt_of_le_of_lt (stage.past (sources ▸ inside)) newer) types stage.tracks.later.2.2
    (supply ▸ Nat.lt_succ_self _) fun i p inside => Nat.ne_of_lt (stage.tracks.sources (sources ▸ inside)).2.2
  refine ⟨reached, ?_, .group (.inl ⟨own, found⟩) ((keyMakes.image.mono makes.later.1).mono later)
    (makes.image.mono later)⟩
  have first : (r, s) ≤ (r, { s with source := s.source + 1 }) := ⟨le_refl _, grown⟩
  have last : (r₃, s₃) ≤ (r₃.add (groupSource name id key element) (groupSource name s.source key' element'), s₃) :=
    ⟨later, le_refl _⟩
  exact le_trans first (le_trans keyMakes.later (le_trans makes.later last))

theorem Stage.other {op op' : ResultOperator} (stage : G.Stage src st) (single : op.source? = none)
    (count : ∀ n, op = .take n ∨ op = .skip n → n.Before G.first) (early : G.first ≤ G.issued)
    (h : leads op.renamed st op' st') :
    G.Stage src st' ∧ st ≤ st' ∧ op.Related (G.Image st'.1) (G.SourceImage st'.1) op' := by
  have counted : ∀ {n n' : Expr} {u}, n.Before G.first → leads (Renamed.rename n) st n' u →
      G.Stage src u ∧ st ≤ u ∧ n' = n := by
    intro n n' u before renamed
    have makes := stage.rename (everyMono before early fun _ => .inr) renamed
    exact ⟨stage.later makes, makes.later, imageBefore before makes.image⟩
  cases op with
  | group => cases single
  | distinct =>
    obtain ⟨rfl, rfl⟩ := Threaded.ofPure h
    exact ⟨stage, le_refl _, .distinct⟩
  | count =>
    obtain ⟨rfl, rfl⟩ := Threaded.ofPure h
    exact ⟨stage, le_refl _, .count⟩
  | first orNull =>
    obtain ⟨rfl, rfl⟩ := Threaded.ofPure h
    exact ⟨stage, le_refl _, .first⟩
  | take n =>
    obtain ⟨n', u, renamed, h⟩ := Threaded.ofBind h
    obtain ⟨rfl, rfl⟩ := Threaded.ofPure h
    obtain ⟨stage, later, rfl⟩ := counted (count n (.inl rfl)) renamed
    exact ⟨stage, later, .take⟩
  | skip n =>
    obtain ⟨n', u, renamed, h⟩ := Threaded.ofBind h
    obtain ⟨rfl, rfl⟩ := Threaded.ofPure h
    obtain ⟨stage, later, rfl⟩ := counted (count n (.inr rfl)) renamed
    exact ⟨stage, later, .skip⟩

theorem Stage.operators {ops ops' : List ResultOperator} {last : Source} (stage : G.Stage src st)
    (stacked : Stacked (fun r e => e.Every (Issued G.issued (Over G.first r))) (Before G.first) src ops last)
    (own : ∀ o ∈ ops.filterMap source?, G.own o) (early : G.first ≤ G.issued)
    (along : Along (fun op st op' st' => leads (ResultOperator.renamed op) st op' st') ops st ops' st') :
    G.Tracks st' ∧ st ≤ st' ∧
      List.Forall₂ (ResultOperator.Related (G.Image st'.1) (G.SourceImage st'.1)) ops ops' := by
  induction stacked generalizing st ops' with
  | nil =>
    cases along
    exact ⟨stage.tracks, le_refl _, .nil⟩
  | group keyIssued elementIssued newer _ ih =>
    cases along with
    | cons head rest =>
      obtain ⟨here, later⟩ := List.forall_mem_cons.mp own
      obtain ⟨stage, first, related⟩ := stage.group keyIssued elementIssued newer here head
      obtain ⟨tracks, next, others⟩ := ih stage later rest
      exact ⟨tracks, le_trans first next, .cons (related.imp (fun _ _ image => image.mono next.1)
        fun _ _ image => image.mono next.1) others⟩
  | other single count _ ih =>
    cases along with
    | cons head rest =>
      rw [List.filterMap_cons_none single] at own
      obtain ⟨stage, first, related⟩ := stage.other single count early head
      obtain ⟨tracks, next, others⟩ := ih stage own rest
      exact ⟨tracks, le_trans first next, .cons (related.imp (fun _ _ image => image.mono next.1)
        fun _ _ image => image.mono next.1) others⟩

end Ground

namespace Query
open Ground
variable {first s t u u' : Supply} {q q' : Query} {item : Expr} {last : Source}

def Layers.ground (layers : q.Layers first item s last) (later : s ≤ t) : Ground where
  first := first
  issued := s
  base := t
  own o := o ∈ q.sources
  later := later
  newer {o} inside := by
    rcases List.mem_cons.mp inside with rfl | more
    · exact layers.source
    · exact Nat.le_trans layers.source (Nat.le_of_lt ((List.pairwise_cons.mp layers.operators.sources.1).1 o more))
  given {o} inside := Nat.lt_of_le_of_lt (layers.operators.sources.2 o inside) layers.given
  apart {o o'} inside inside' same := by
    have once : (q.sources.map Source.id).Nodup :=
      List.pairwise_map.mpr (layers.operators.sources.1.imp fun less => Nat.ne_of_lt less)
    exact List.inj_on_of_nodup_map once inside inside' same

theorem Layers.renamed (layers : q.Layers first item s last) (later : s ≤ t) {r : Renaming}
    (h : leads q.renamed (.empty, t) q' (r, u)) : ∃ tracks : (layers.ground later).Tracks (r, u),
      q.Related tracks.correspondence.rel tracks.correspondence.sources q' := by
  obtain ⟨origin, ⟨r₁, s₁⟩, renamed, h⟩ := Threaded.ofBind h
  obtain ⟨source, ⟨r₂, s₂⟩, made, h⟩ := Threaded.ofBind h
  obtain ⟨rfl, drawn⟩ := Threaded.ofLift made
  obtain ⟨id, _, numbered, drawn⟩ := Threaded.ofBind drawn
  obtain ⟨rfl, rfl⟩ := Build.leadsSource numbered
  obtain ⟨rfl, rfl⟩ := Threaded.ofPure drawn
  obtain ⟨_, ⟨r₃, s₃⟩, added, h⟩ := Threaded.ofBind h
  cases added
  obtain ⟨clauses, ⟨r₄, s₄⟩, clausesRenamed, h⟩ := Threaded.ofBind h
  obtain ⟨selector, ⟨r₅, s₅⟩, selectorRenamed, h⟩ := Threaded.ofBind h
  obtain ⟨operators, ⟨r₆, s₆⟩, operatorsRenamed, h⟩ := Threaded.ofBind h
  obtain ⟨rfl, same⟩ := Threaded.ofPure h
  cases same
  have own : ∀ o ∈ q.sources, (layers.ground later).own o := fun o inside => inside
  have ownFirst : (layers.ground later).own q.source := List.mem_cons_self
  have originMakes := (Tracks.empty (G := layers.ground later)).rename (coversBefore layers.origin layers.start)
    (fun i o inside own => absurd ⟨i, o, inside, own⟩ (untouchedBefore layers.origin)) renamed
  have none : r₁.sources = [] := originMakes.sources
  have grown : s₁ ≤ { s₁ with source := s₁.source + 1 } := ⟨Nat.le_refl _, Nat.le_refl _, Nat.le_succ _⟩
  obtain ⟨stage, _, found⟩ := (originMakes.tracks.supplies grown).next
    ⟨s₁.source, q.source.itemName, q.source.itemType⟩ ownFirst (fun _ _ inside => by rw [none] at inside; cases inside)
    rfl originMakes.tracks.later.2.2 (Nat.lt_succ_self _) fun _ _ inside => by rw [none] at inside; cases inside
  obtain ⟨stage, toClauses, clausesRelated⟩ := (Threaded.ofMapM clausesRenamed).grows
    (I := (layers.ground later).Stage q.source)
    (S := fun st c c' => Clause.Related ((layers.ground later).Image st.1) c c') stage
    (fun later _ _ related => related.imp fun _ _ image => image.mono (Prod.le_def.mp later).1)
    fun c inside st c' st' stage renamed => stage.clause (layers.clauses c inside) renamed
  have makes := stage.rename layers.selector selectorRenamed
  obtain ⟨tracks, toOperators, operatorsRelated⟩ := (stage.later makes).operators layers.operators
    (fun o inside => own o (List.mem_cons_of_mem _ inside)) layers.start (Threaded.ofMapM operatorsRenamed)
  refine ⟨tracks, ?_, imageBefore (G := layers.ground later) layers.origin originMakes.image, ?_,
    makes.image.mono toOperators.1, operatorsRelated⟩
  · have grown := le_trans toClauses (le_trans makes.later toOperators)
    exact .inl ⟨ownFirst, grown.1.2 _ _ found⟩
  · have grown := le_trans makes.later toOperators
    exact clausesRelated.imp fun _ _ related => related.imp fun _ _ image => image.mono grown.1

theorem Layers.apart (layers : q.Layers first item s last) (later : s ≤ t) {r : Renaming}
    (tracks : (layers.ground later).Tracks (r, u))
    (related : q.Related tracks.correspondence.rel tracks.correspondence.sources q') {e : Expr} (inside : e ∈ q'.exprs)
    {i : Nat} {o p : Source} (refers : .reference i o ∈ e.nodes) (own : p ∈ q.sources) : o.id ≠ p.id := by
  have old : ∀ {e : Expr}, e.Before first → .reference i o ∈ e.nodes → o.id ≠ p.id := fun before refers =>
    Nat.ne_of_lt (Nat.lt_of_lt_of_le (before _ refers).2 ((layers.ground later).newer own))
  rcases related.exprs inside with rfl | ⟨e₀, image⟩ | ⟨op, operator, count⟩
  · exact old layers.origin refers
  · exact tracks.left image refers own
  · exact old (layers.operators.counts operator count) refers

theorem copyLeads (h : q.copy.run t = (q', u)) : ∃ r, leads q.renamed (.empty, t) q' (r, u) := by
  obtain ⟨⟨q₁, r⟩, v, renamed, last⟩ := Threaded.ofBind (m := Fresh) (s := t) (t := u) (b := q') h
  obtain ⟨rfl, rfl⟩ := Threaded.ofPure last
  exact ⟨r, renamed⟩

/-- A copy of the query of a chain has the same outcome as the query: a value and its type, or a kind of error.
Nothing in the copy refers to the source of the query or to that of any of its groupings. -/
theorem copyRunsAlike {chain : Expr} {n n' : Nat} {s s₁ t t₁ u u' : Supply} (before : chain.Before s)
    (built : ((assemble chain).run.run n).run s = ((.ok q, n'), s₁)) (later : s₁ ≤ t)
    (copied : q.copy.run t = (q', t₁)) (start : s₁ ≤ u) (start' : s₁ ≤ u') :
    ((q'.execute.run u').1.map fun o => (o.shape.ty, o.value)).mapError QueryError.kind =
        ((q.execute.run u).1.map fun o => (o.shape.ty, o.value)).mapError QueryError.kind ∧
      ∀ e ∈ q'.exprs, ∀ i o, .reference i o ∈ e.nodes → ∀ p ∈ q.sources, o.id ≠ p.id := by
  obtain ⟨item, last, layers⟩ := assembleLayers before built
  obtain ⟨r, renamed⟩ := copyLeads copied
  obtain ⟨tracks, related⟩ := layers.renamed later renamed
  have outcomes := (tracks.correspondence.execute related u u' start.2.1 start'.2.1).1
  exact ⟨(outcomes.answer fun _ _ same => same.answer).symm,
    fun e inside i o refers p own => layers.apart later tracks related inside refers own⟩

/- A clause, a projection that shares its nodes with the key of a grouping, and a grouping of the groups. -/
theorem copyRunsAlikeOfGroups : ∃ chain q s n t q' u, chain.Before s ∧
    ((assemble chain).run.run 0).run s = ((.ok q, n), t) ∧ q.copy.run t = (q', u) ∧ q.operators.length = 3 ∧
    (q.execute.run t).1.isOk = true ∧
    ((q'.execute.run t).1.map fun o => (o.shape.ty, o.value)).mapError QueryError.kind =
        ((q.execute.run t).1.map fun o => (o.shape.ty, o.value)).mapError QueryError.kind ∧
      ∀ e ∈ q'.exprs, ∀ i o, .reference i o ∈ e.nodes → ∀ p ∈ q.sources, o.id ≠ p.id := by
  refine readMeeting [] pairOfWholes ("$.where(w => w > 0).select(x => new \x7b a = x, b = x + 1 \x7d)" ++
      ".group_by(y => y.b, z => z.a).group_by(g => g.key).take(1)") ⟨1, 0, 0⟩
    (fun chain q s t => decide (chain.Before s ∧ q.operators.length = 3 ∧ (q.execute.run t).1.isOk = true))
    (by decide +kernel) fun chain q n s t built meets => ?_
  obtain ⟨before, three, succeeds⟩ := of_decide_eq_true meets
  exact ⟨chain, q, s, n, t, (q.copy.run t).1, (q.copy.run t).2, before, built, rfl, three, succeeds,
    copyRunsAlike before built (le_refl t) rfl (le_refl t) (le_refl t)⟩

end Query

end SymbolicQuery
