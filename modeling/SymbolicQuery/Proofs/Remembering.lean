import SymbolicQuery.Proofs.Copying

/-! What a renaming remembers. Nodes that were met keep their images when sources are renamed anew. A rule for what
renaming an expression keeps and leaves covers both the identities that contexts give out and which references of a copy
are to the sources of the copy. -/
namespace SymbolicQuery
open Results SymbolicQuery.Expr

theorem Along.keeps {α β σ : Type} {R : α → σ → β → σ → Prop} {I : σ → Prop} {S : α → β → Prop}
    {as : List α} {bs : List β} {s t : σ} (along : Along R as s bs t) (start : I s)
    (each : ∀ a ∈ as, ∀ {s b t}, I s → R a s b t → I t ∧ S a b) : I t ∧ List.Forall₂ S as bs := by
  induction along with
  | nil => exact ⟨start, .nil⟩
  | cons head _ ih =>
    obtain ⟨here, later⟩ := List.forall_mem_cons.mp each
    obtain ⟨kept, made⟩ := here start head
    obtain ⟨kept, others⟩ := ih kept later
    exact ⟨kept, .cons made others⟩

theorem Expr.sourcesParts (e : Expr) : e.sources = e.asSource?.toList ++ e.parts.flatMap Expr.sources := by
  unfold Expr.sources
  rw [nodesParts, List.filterMap_cons, List.filterMap_flatMap]
  cases e.asSource? <;> rfl

theorem Renaming.noteSources {r : Renaming} {e e' : Expr} : (r.note e e').sources = r.sources := by
  unfold note
  split <;> rfl

theorem Renaming.noteInside {r : Renaming} {e e' f f' : Expr} (inside : (f, f') ∈ (r.note e e').images) :
    (f, f') ∈ r.images ∨ f = e ∧ f' = e' := by
  unfold note at inside
  split at inside
  · exact .inl inside
  · rcases List.mem_cons.mp inside with same | before
    · cases same
      exact .inr ⟨rfl, rfl⟩
    · exact .inl before

namespace Renamed
variable {I : Renaming × Supply → Prop} {P : Expr → Prop} {S : Expr → Expr → Prop}

/-- What renaming keeps of its states and leaves of expressions: what holds of remembered images, of references, and of
nodes over new parts, where every image may be remembered. -/
structure Carries (I : Renaming × Supply → Prop) (P : Expr → Prop) (S : Expr → Expr → Prop) : Prop where
  part {e c : Expr} : P e → c ∈ e.parts → P c
  node {r : Renaming} {s : Supply} : I (r, s) → I (r, { s with node := s.node + 1 })
  known {r : Renaming} {s : Supply} {e e' : Expr} : I (r, s) → P e → r.known? e = some e' → S e e'
  reference {r : Renaming} {s : Supply} {i : Nat} {o : Source} (j : Nat) : I (r, s) → P (.reference i o) →
    r.known? (.reference i o) = none → S (.reference i o) (.reference j ((r.lookup? o.id).getD o))
  rebuilt {r : Renaming} {s : Supply} {e n : Expr} : I (r, s) → P e → r.known? e = none → e.asSource? = none →
    Rebuilt S e n → S e n
  note {r r' : Renaming} {s s' : Supply} {e e' : Expr} : I (r, s) → P e → r.known? e = none → I (r', s') → S e e' →
    I (r'.note e e', s')

theorem Carries.rename (carries : Carries I P S) {e e' : Expr} {st st' : Renaming × Supply} (start : I st) (holds : P e)
    (h : leads (rename e) st e' st') : I st' ∧ S e e' := by
  induction e using partsInduction generalizing st e' st' with
  | step e ih =>
    obtain ⟨r, s⟩ := st
    obtain ⟨r', s'⟩ := st'
    rcases Pass.runLeads h with entered | ⟨⟨r₁, s₁⟩, ⟨r₂, s₂⟩, ⟨r₃, s₃⟩, n, enter, shape, along, numbered, left⟩
    · obtain ⟨known, same⟩ := Pass.renamingEnters entered
      cases same
      exact ⟨start, carries.known start holds known⟩
    obtain ⟨absent, same⟩ := Pass.renamingEnters enter
    cases same
    obtain ⟨kept, made⟩ := along.keeps start fun c inside {u c' v} before turns =>
      ih c inside before (carries.part holds inside) turns
    have renewed : I (r₃, s₃) := by
      rcases numbered with ⟨_, stays⟩ | ⟨_, fresh⟩
      · exact stays ▸ kept
      · obtain ⟨_, rfl, rfl⟩ := Pass.renamingFresh fresh
        exact carries.node kept
    cases other : e.asSource? with
    | none =>
      have related : S e n := carries.rebuilt start holds absent other (shape.along made)
      rcases Pass.renamingLeaves left with ⟨i, o, o', rfl, _⟩ | ⟨_, rfl, rfl, rfl⟩
      · cases other
      · exact ⟨carries.note start holds absent renewed related, related⟩
    | some o =>
      -- a reference has no parts, so nothing has happened before it is left
      obtain ⟨i, rfl⟩ : ∃ i, e = .reference i o := by
        cases e with
        | reference i p =>
          cases other
          exact ⟨i, rfl⟩
        | _ => cases other
      cases shape
      cases along
      obtain ⟨same, stays⟩ := numbered.resolve_right fun changed => changed.1 rfl
      cases same
      cases stays
      have related (j : Nat) := carries.reference j start holds absent
      rcases Pass.renamingLeaves left with ⟨_, _, o', same, found, rfl, rfl, rfl⟩ | ⟨unnamed, rfl, rfl, rfl⟩
      · cases same
        have image := related s.node
        rw [found] at image
        exact ⟨carries.note start holds absent (carries.node start) image, image⟩
      · have image := related i
        rw [unnamed i o rfl] at image
        exact ⟨carries.note start holds absent start image, image⟩

theorem renameSupplies {e e' : Expr} {st st' : Renaming × Supply} (h : leads (rename e) st e' st') :
    st'.1.sources = st.1.sources ∧ st'.2.source = st.2.source ∧ st.2 ≤ st'.2 := by
  have carries : Carries (fun u => u.1.sources = st.1.sources ∧ u.2.source = st.2.source ∧ st.2 ≤ u.2)
      (fun _ => True) fun _ _ => True := by
    refine ⟨fun _ _ => trivial, fun ⟨same, source, later⟩ => ?_, fun _ _ _ => trivial, fun _ _ _ _ => trivial,
      fun _ _ _ _ _ => trivial, fun _ _ _ ⟨same, source, later⟩ _ => ?_⟩
    · exact ⟨same, source, le_trans later ⟨Nat.le_succ _, Nat.le_refl _, Nat.le_refl _⟩⟩
    · exact ⟨Renaming.noteSources.trans same, source, later⟩
  exact (carries.rename ⟨rfl, rfl, le_refl _⟩ trivial h).1

end Renamed

section Lists
variable {α β γ : Type} {T : γ → γ → Prop} {R : α → β → Prop}

theorem forallAppend {xs ys xs' ys' : List γ} (length : xs.length = ys.length) :
    List.Forall₂ T (xs ++ xs') (ys ++ ys') ↔ List.Forall₂ T xs ys ∧ List.Forall₂ T xs' ys' := by
  induction xs generalizing ys with
  | nil =>
    cases ys with
    | nil => simp
    | cons => cases length
  | cons x xs ih =>
    cases ys with
    | nil => cases length
    | cons y ys => simp [ih (Nat.succ.inj length), and_assoc]

theorem forallFlat {f : α → List γ} {g : β → List γ} {as : List α} {bs : List β}
    (lengths : List.Forall₂ (fun a b => (f a).length = (g b).length) as bs) :
    List.Forall₂ T (as.flatMap f) (bs.flatMap g) ↔ List.Forall₂ (fun a b => List.Forall₂ T (f a) (g b)) as bs := by
  induction lengths with
  | nil => simp
  | cons head _ ih => simp [forallAppend head, ih]

theorem filterLength {f : α → Option γ} {g : β → Option γ} {as : List α} {bs : List β}
    (each : List.Forall₂ (fun a b => (f a).isSome = (g b).isSome) as bs) :
    (as.filterMap f).length = (bs.filterMap g).length := by
  induction each with
  | nil => rfl
  | @cons a b _ _ head _ ih => cases found : f a <;> cases found' : g b <;> simp_all

theorem forallIff {C : α → Prop} {as : List α} {bs : List β} (each : List.Forall₂ (fun a b => R a b ↔ C a) as bs) :
    List.Forall₂ R as bs ↔ ∀ a ∈ as, C a := by
  induction each with
  | nil => simp
  | cons head _ ih => simp [head, ih]

end Lists

namespace Expr
variable {T : Source → Source → Prop} {e n : Expr}

theorem rebuiltSources (rebuilt : Rebuilt (fun c c' => List.Forall₂ T c.sources c'.sources) e n)
    (other : e.asSource? = none) : List.Forall₂ T e.sources n.sources := by
  have lengths := rebuilt.parts.imp fun _ _ related => related.length_eq
  rw [sourcesParts e, sourcesParts n, rebuilt.asSource, other]
  exact (forallFlat lengths).mpr rebuilt.parts

theorem sourcesWithin (node : n ∈ e.nodes) {o : Source} (refers : o ∈ n.sources) : o ∈ e.sources := by
  obtain ⟨m, inner, source⟩ := List.mem_filterMap.mp refers
  have every : e.Every fun m => m ∈ e.nodes := fun _ inside => inside
  exact List.mem_filterMap.mpr ⟨m, every.node node m inner, source⟩

theorem partSources {c : Expr} {o : Source} (inside : c ∈ e.parts) (refers : o ∈ c.sources) : o ∈ e.sources :=
  sourcesWithin (memNodes.mpr (.inr ⟨c, inside, selfNode c⟩)) refers

theorem issuedSources {s : Supply} {among : Source → Prop} (issued : e.Every (Issued s among)) :
    ∀ o ∈ e.sources, among o := by
  intro o inside
  obtain ⟨n, node, refers⟩ := List.mem_filterMap.mp inside
  cases n with
  | reference i p =>
    cases refers
    exact (issued _ node).2
  | _ => cases refers

end Expr

structure Renaming.Held (r : Renaming) (bound : Nat) : Prop where
  images {e e' : Expr} : (e, e') ∈ r.images → List.Forall₂ (fun _ o' => o'.id < bound) e.sources e'.sources
  sources {id : Nat} {o : Source} : (id, o) ∈ r.sources → o.id < bound

theorem Renaming.Held.mono {r : Renaming} {bound more : Nat} (held : r.Held bound) (later : bound ≤ more) : r.Held more where
  images inside := (held.images inside).imp fun _ _ below => Nat.lt_of_lt_of_le below later
  sources inside := Nat.lt_of_lt_of_le (held.sources inside) later

theorem Renaming.Held.image {r : Renaming} {bound : Nat} {o : Source} (held : r.Held bound) (below : o.id < bound) :
    ((r.lookup? o.id).getD o).id < bound := by
  cases found : r.lookup? o.id with
  | none => exact below
  | some o' => exact held.sources (Renaming.lookupInside found)

theorem Renaming.Held.rename {e e' : Expr} {st st' : Renaming × Supply} (held : st.1.Held st.2.source)
    (before : e.Before st.2) (h : leads (Renamed.rename e) st e' st') : st'.1.Held st'.2.source := by
  have carries : Renamed.Carries (fun u => u.1.Held st.2.source) (fun e => ∀ o ∈ e.sources, o.id < st.2.source)
      fun e e' => List.Forall₂ (fun _ o' => o'.id < st.2.source) e.sources e'.sources := by
    refine ⟨fun below inside o refers => below o (partSources inside refers), id, fun held _ known => ?_,
      fun {r s i o} j held below _ => ?_, fun _ _ _ other rebuilt => rebuiltSources rebuilt other,
      fun _ _ _ held made => ⟨fun {f f'} inside => ?_, ?_⟩⟩
    · exact held.images (Renaming.lookupInside known)
    · exact .cons (held.image (below o List.mem_cons_self)) .nil
    · rcases Renaming.noteInside inside with known | ⟨rfl, rfl⟩
      · exact held.images known
      · exact made
    · rw [Renaming.noteSources]
      exact held.sources
  rw [(Renamed.renameSupplies h).2.1]
  exact (carries.rename held (issuedSources before) h).1

/-- What contexts come to by renaming expressions, by further sources, and with time. -/
inductive Renaming.Reached : Renaming × Supply → Prop where
  | start {s : Supply} : Reached (.empty, s)
  | later {r : Renaming} {s t : Supply} (reached : Reached (r, s)) (later : s ≤ t) : Reached (r, t)
  | add {r : Renaming} {s : Supply} (o o' : Source) (reached : Reached (r, s)) (given : o'.id < s.source) :
      Reached (r.add o o', s)
  | rename {e e' : Expr} {st st' : Renaming × Supply} (reached : Reached st) (before : e.Before st.2)
      (renamed : leads (Renamed.rename e) st e' st') : Reached st'

theorem Renaming.Reached.held {st : Renaming × Supply} (reached : Reached st) : st.1.Held st.2.source := by
  induction reached with
  | start => exact ⟨fun none => by (cases none), fun none => by cases none⟩
  | later _ later ih => exact ih.mono later.2.2
  | add o o' _ given ih =>
    refine ⟨ih.images, fun {id p} inside => ?_⟩
    rcases List.mem_cons.mp inside with same | before
    · cases same
      exact given
    · exact ih.sources before
  | rename _ before renamed ih => exact ih.rename before renamed

namespace Query
open Renamed Renaming
variable {st st' : Renaming × Supply} {q q' : Query} {r : Renaming} {s : Supply}

abbrev Renames : List Expr → Renaming × Supply → List Expr → Renaming × Supply → Prop :=
  Along fun e st e' st' => leads (rename e) st e' st'

theorem keysRename {ks ks' : List SortKey}
    (along : Along (fun (k : SortKey) st k' st' =>
      leads (do return { k with key := ← rename k.key } : Renamed SortKey) st k' st') ks st ks' st') :
    Renames (ks.map SortKey.key) st (ks'.map SortKey.key) st' := by
  induction along with
  | nil => exact .nil
  | cons head _ ih =>
    obtain ⟨e', w, renamed, h⟩ := Threaded.ofBind head
    obtain ⟨rfl, rfl⟩ := Threaded.ofPure h
    exact .cons renamed ih

theorem clauseRenames {c c' : Clause} (h : leads (c.mapExprs rename) st c' st') : Renames c.exprs st c'.exprs st' := by
  cases c with
  | filter predicate =>
    obtain ⟨e', u, renamed, h⟩ := Threaded.ofBind h
    obtain ⟨rfl, rfl⟩ := Threaded.ofPure h
    exact .cons renamed .nil
  | sort keys =>
    obtain ⟨keys', u, renamed, h⟩ := Threaded.ofBind h
    obtain ⟨rfl, rfl⟩ := Threaded.ofPure h
    exact keysRename (Threaded.ofMapM renamed)

theorem clausesRename {cs cs' : List Clause} (along : Along (fun c st c' st' => leads (c.mapExprs rename) st c' st') cs st cs' st') :
    Renames (cs.flatMap Clause.exprs) st (cs'.flatMap Clause.exprs) st' := by
  induction along with
  | nil => exact .nil
  | cons head _ ih => exact (clauseRenames head).append ih

theorem operatorRenames {op op' : ResultOperator} (h : leads op.renamed (r, s) op' st') :
    (∃ name id key element key' element' r' s', op = .group name id key element ∧
      op' = .group name s.source key' element' ∧
      Renames [key, element] (r, { s with source := s.source + 1 }) [key', element'] (r', s') ∧
      st' = (r'.add (ResultOperator.groupSource name id key element)
        (ResultOperator.groupSource name s.source key' element'), s')) ∨
    op.source? = none ∧ op'.source? = none ∧ Renames op.exprs (r, s) op'.exprs st' := by
  cases op with
  | group name id key element =>
    obtain ⟨id', ⟨r₁, s₁⟩, numbered, h⟩ := Threaded.ofBind h
    obtain ⟨rfl, drawn⟩ := Threaded.ofLift numbered
    obtain ⟨rfl, rfl⟩ := Build.leadsSource drawn
    obtain ⟨key', u, keyRenamed, h⟩ := Threaded.ofBind h
    obtain ⟨element', ⟨r', s'⟩, elementRenamed, h⟩ := Threaded.ofBind h
    obtain ⟨_, ⟨r₂, s₂⟩, added, h⟩ := Threaded.ofBind h
    obtain ⟨rfl, rfl⟩ := Threaded.ofPure h
    cases added
    exact .inl ⟨name, id, key, element, key', element', r', _, rfl, rfl, .cons keyRenamed (.cons elementRenamed .nil), rfl⟩
  | take n | skip n =>
    obtain ⟨n', u, renamed, h⟩ := Threaded.ofBind h
    obtain ⟨rfl, rfl⟩ := Threaded.ofPure h
    exact .inr ⟨rfl, rfl, .cons renamed .nil⟩
  | distinct | count | first =>
    obtain ⟨rfl, rfl⟩ := Threaded.ofPure h
    exact .inr ⟨rfl, rfl, .nil⟩

abbrev Operates : List ResultOperator → Renaming × Supply → List ResultOperator → Renaming × Supply → Prop :=
  Along fun op st op' st' => leads (ResultOperator.renamed op) st op' st'

theorem copyRenames (h : leads q.renamed st q' st') : ∃ r s u,
    leads (rename q.origin) st q'.origin (r, s) ∧ q'.source.id = s.source ∧
      Renames (q.clauses.flatMap Clause.exprs ++ [q.selector])
        (r.add q.source q'.source, { s with source := s.source + 1 })
        (q'.clauses.flatMap Clause.exprs ++ [q'.selector]) u ∧
      Operates q.operators u q'.operators st' := by
  obtain ⟨origin, ⟨r₁, s₁⟩, renamed, h⟩ := Threaded.ofBind h
  obtain ⟨source, ⟨r₂, s₂⟩, made, h⟩ := Threaded.ofBind h
  obtain ⟨rfl, drawn⟩ := Threaded.ofLift made
  obtain ⟨id, _, numbered, drawn⟩ := Threaded.ofBind drawn
  obtain ⟨rfl, rfl⟩ := Build.leadsSource numbered
  obtain ⟨rfl, rfl⟩ := Threaded.ofPure drawn
  obtain ⟨_, ⟨r₃, s₃⟩, added, h⟩ := Threaded.ofBind h
  cases added
  obtain ⟨clauses, v, clausesRenamed, h⟩ := Threaded.ofBind h
  obtain ⟨selector, u, selectorRenamed, h⟩ := Threaded.ofBind h
  obtain ⟨operators, w, operatorsRenamed, h⟩ := Threaded.ofBind h
  obtain ⟨rfl, rfl⟩ := Threaded.ofPure h
  exact ⟨r₁, s₁, u, renamed, rfl, (clausesRename (Threaded.ofMapM clausesRenamed)).append (.cons selectorRenamed .nil),
    Threaded.ofMapM operatorsRenamed⟩

theorem renamesSupplies {es es' : List Expr} (renames : Renames es st es' st') :
    st.2 ≤ st'.2 ∧ st'.2.source = st.2.source :=
  (renames.keeps (I := fun u => st.2 ≤ u.2 ∧ u.2.source = st.2.source) (S := fun _ _ => True) ⟨le_refl _, rfl⟩
    fun e _ {_ _ _} before renamed => by
      obtain ⟨_, source, later⟩ := renameSupplies renamed
      exact ⟨⟨le_trans before.1 later, source.trans before.2⟩, trivial⟩).1

theorem renamesReached {es es' : List Expr} (reached : Reached st) (before : ∀ e ∈ es, e.Before st.2)
    (renames : Renames es st es' st') : Reached st' ∧ st.2 ≤ st'.2 :=
  (renames.keeps (I := fun u => Reached u ∧ st.2 ≤ u.2) (S := fun _ _ => True) ⟨reached, le_refl _⟩
    fun e inside {_ _ _} given renamed => by
      have issued : e.Before _ := everyMono (before e inside) given.2 fun _ old => Nat.lt_of_lt_of_le old given.2.2.2
      exact ⟨⟨given.1.rename issued renamed, le_trans given.2 (renameSupplies renamed).2.2⟩, trivial⟩).1

theorem operatorReached {op op' : ResultOperator} (reached : Reached st) (before : ∀ e ∈ op.exprs, e.Before st.2)
    (h : leads op.renamed st op' st') : Reached st' ∧ st.2 ≤ st'.2 := by
  obtain ⟨r, s⟩ := st
  rcases operatorRenames h with ⟨name, id, key, element, key', element', r', s', rfl, rfl, renames, rfl⟩ | ⟨_, _, renames⟩
  · have grown : s ≤ { s with source := s.source + 1 } := ⟨Nat.le_refl _, Nat.le_refl _, Nat.le_succ _⟩
    obtain ⟨reached, later⟩ := renamesReached (reached.later grown)
      (fun e inside => everyMono (before e inside) grown fun _ => Nat.lt_succ_of_lt) renames
    exact ⟨reached.add _ _ later.2.2, le_trans grown later⟩
  · exact renamesReached reached before renames

theorem copyReached (reached : Reached st) (before : ∀ e ∈ q.exprs, e.Before st.2) (h : leads q.renamed st q' st') :
    Reached st' ∧ st.2 ≤ st'.2 := by
  obtain ⟨r, s, u, origin, given, renames, operates⟩ := copyRenames h
  have each : ∀ {e : Expr} {t : Supply}, st.2 ≤ t → e ∈ q.exprs → e.Before t := fun later inside =>
    everyMono (before _ inside) later fun _ old => Nat.lt_of_lt_of_le old later.2.2
  have first := (renameSupplies origin).2.2
  have grown : s ≤ { s with source := s.source + 1 } := ⟨Nat.le_refl _, Nat.le_refl _, Nat.le_succ _⟩
  have start : Reached (r.add q.source q'.source, { s with source := s.source + 1 }) :=
    ((reached.rename (before _ List.mem_cons_self) origin).later grown).add _ _ (given ▸ Nat.lt_succ_self _)
  obtain ⟨reached, later⟩ := renamesReached start (fun e inside => each (le_trans first grown) (by
    simp only [exprs, List.mem_append, List.mem_cons, List.not_mem_nil, or_false] at inside ⊢
    tauto)) renames
  have later := le_trans (le_trans first grown) later
  exact (operates.keeps (I := fun v => Reached v ∧ st.2 ≤ v.2) (S := fun _ _ => True) ⟨reached, later⟩
    fun op inside {_ _ _} given renamed => by
      obtain ⟨reached, more⟩ := operatorReached given.1 (fun e member => each given.2 (List.mem_append_right _
        (List.mem_cons_of_mem _ (List.mem_flatMap.mpr ⟨op, inside, member⟩)))) renamed
      exact ⟨⟨reached, le_trans given.2 more⟩, trivial⟩).1

theorem copySources (h : leads q.renamed st q' st') :
    List.Forall₂ (fun op op' => op.source?.isSome = op'.source?.isSome) q.operators q'.operators ∧
      q.sources.length = q'.sources.length ∧ ∀ o ∈ q'.sources, st.2.source ≤ o.id := by
  obtain ⟨r, s, u, origin, given, renames, operates⟩ := copyRenames h
  have first := (renameSupplies origin).2.1
  have next := (renamesSupplies renames).2
  obtain ⟨_, each⟩ := operates.keeps (I := fun v => st.2.source ≤ v.2.source)
    (S := fun op op' => op.source?.isSome = op'.source?.isSome ∧ ∀ o ∈ op'.source?, st.2.source ≤ o.id)
    (by dsimp only at first next ⊢; omega) fun op _ {v op' w} before renamed => by
      obtain ⟨r, s⟩ := v
      rcases operatorRenames renamed with ⟨name, id, key, element, key', element', r', s', rfl, rfl, renames, rfl⟩ |
          ⟨none, none', renames⟩
      · refine ⟨Nat.le_trans before (Nat.le_trans (Nat.le_succ _) (renamesSupplies renames).1.2.2), rfl, fun o made => ?_⟩
        cases made
        exact before
      · refine ⟨Nat.le_trans before (renamesSupplies renames).1.2.2, none ▸ none' ▸ rfl, fun o made => ?_⟩
        rw [none'] at made
        cases made
  refine ⟨each.imp fun _ _ both => both.1, congrArg Nat.succ ?_, fun o inside => ?_⟩
  · exact filterLength (each.imp fun _ _ both => both.1)
  · rcases List.mem_cons.mp inside with rfl | later
    · exact Nat.le_of_eq (first.symm.trans given.symm)
    · obtain ⟨op', member, made⟩ := List.mem_filterMap.mp later
      obtain ⟨_, _, _, fresh⟩ := partFrom each member
      exact fresh o made

end Query

end SymbolicQuery
