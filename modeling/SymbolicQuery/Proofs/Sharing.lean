import SymbolicQuery.Proofs.Remembering

/-! Nodes that are shared stay shared. A context whose mapping stays as it is replaces references in expressions one
after another, and remembers every node that it has rebuilt. Nodes with a mapped reference below them have images that
are new, each its own; all others stay as they are. So what becomes of a node depends on the node alone, whatever
expressions it stands in, and different nodes become different nodes. -/
namespace SymbolicQuery
open Results Renamed SymbolicQuery.Expr

namespace Expr
variable {mapping : List (Nat × Source)} {e c : Expr}

def Mapped (mapping : List (Nat × Source)) (e : Expr) : Prop := ∃ o ∈ e.sources, mapping.lookup o.id ≠ none

theorem mappedPart (mapped : c.Mapped mapping) (inside : c ∈ e.parts) : e.Mapped mapping :=
  mapped.imp fun _ both => ⟨partSources inside both.1, both.2⟩

theorem mappedNode (mapped : c.Mapped mapping) (inside : c ∈ e.nodes) : e.Mapped mapping :=
  mapped.imp fun _ both => ⟨sourcesWithin inside both.1, both.2⟩

theorem mappedReference {i : Nat} {o : Source} :
    (Expr.reference i o).Mapped mapping ↔ mapping.lookup o.id ≠ none := by
  refine ⟨fun ⟨p, inside, found⟩ => ?_, fun found => ⟨o, List.mem_singleton_self o, found⟩⟩
  cases List.mem_singleton.mp inside
  exact found

theorem mappedBelow (mapped : e.Mapped mapping) (other : e.asSource? = none) : ∃ c ∈ e.parts, c.Mapped mapping := by
  obtain ⟨o, inside, found⟩ := mapped
  rw [sourcesParts, other] at inside
  obtain ⟨c, part, below⟩ := List.mem_flatMap.mp inside
  exact ⟨c, part, o, below, found⟩

end Expr

namespace Renaming

def Becomes (mapping : List (Nat × Source)) (r : Renaming) (e e' : Expr) : Prop :=
  e.Mapped mapping ∧ r.known? e = some e' ∨ ¬ e.Mapped mapping ∧ e' = e

def Follows (mapping : List (Nat × Source)) (r : Renaming) (e e' : Expr) : Prop :=
  (∃ i j o o', e = .reference i o ∧ mapping.lookup o.id = some o' ∧ e' = .reference j o') ∨
    e.asSource? = none ∧ Rebuilt (Becomes mapping r) e e'

structure Shares (mapping : List (Nat × Source)) (met : Expr → Prop) (st : Renaming × Supply) : Prop where
  sources : st.1.sources = mapping
  part {e c : Expr} : met e → c ∈ e.parts → met c
  issued {e : Expr} : met e → e.id < st.2.node
  keys {e e' : Expr} : (e, e') ∈ st.1.images → met e ∧ e.Mapped mapping
  given {e e' : Expr} : (e, e') ∈ st.1.images → e'.id < st.2.node
  clear {n e e' : Expr} : met n → (e, e') ∈ st.1.images → e'.id ≠ n.id
  apart {e f e' f' : Expr} : (e, e') ∈ st.1.images → (f, f') ∈ st.1.images → e'.id = f'.id → e = f
  shape {e e' : Expr} : (e, e') ∈ st.1.images → Follows mapping st.1 e e'

variable {mapping : List (Nat × Source)} {met : Expr → Prop} {r r' : Renaming} {s s' : Supply}
  {st st' : Renaming × Supply} {e e' n : Expr}

theorem Becomes.mono (becomes : Becomes mapping r e e') (later : r ≤ r') : Becomes mapping r' e e' :=
  becomes.imp (fun both => ⟨both.1, later.1 _ _ both.2⟩) id

theorem Becomes.only {f : Expr} (becomes : Becomes mapping r e e') (becomes' : Becomes mapping r e f) : e' = f := by
  rcases becomes with ⟨mapped, known⟩ | ⟨unmapped, rfl⟩ <;> rcases becomes' with ⟨mapped', known'⟩ | ⟨unmapped', rfl⟩
  · exact Option.some.inj (known.symm.trans known')
  · exact absurd mapped unmapped'
  · exact absurd mapped' unmapped
  · rfl

theorem Follows.mono (follows : Follows mapping r e e') (later : r ≤ r') : Follows mapping r' e e' :=
  follows.imp id fun both => ⟨both.1, both.2.mono fun _ _ _ becomes => becomes.mono later⟩

namespace Shares

theorem later (shares : Shares mapping met (r, s)) (later : s ≤ s') : Shares mapping met (r, s') where
  sources := shares.sources
  part := shares.part
  issued inside := Nat.lt_of_lt_of_le (shares.issued inside) later.1
  keys := shares.keys
  given known := Nat.lt_of_lt_of_le (shares.given known) later.1
  clear := shares.clear
  apart := shares.apart
  shape := shares.shape

structure Makes (mapping : List (Nat × Source)) (met : Expr → Prop) (st : Renaming × Supply) (e e' : Expr)
    (st' : Renaming × Supply) : Prop where
  shares : Shares mapping met st'
  grows : st ≤ st'
  images {f f' : Expr} : (f, f') ∈ st'.1.images →
    (f, f') ∈ st.1.images ∨ sizeOf f ≤ sizeOf e ∧ st.2.node ≤ f'.id
  becomes : Becomes mapping st'.1 e e'

theorem note (shares : Shares mapping met (r, s)) (inside : met e) (mapped : e.Mapped mapping)
    (absent : r.known? e = none) (new : s.node ≤ e'.id) (later : s ≤ s') (given : e'.id < s'.node)
    (follows : Follows mapping r e e') : Makes mapping met (r, s) e e' (r.note e e', s') := by
  have fresh : ∀ {i : Nat}, i < s.node → e'.id ≠ i := fun below => Nat.ne_of_gt (Nat.lt_of_lt_of_le below new)
  have changed : e' ≠ e := fun same => fresh (shares.issued inside) (congrArg Expr.id same)
  rw [noteChanged changed]
  have grows := growsBy e' absent
  have before := shares.later later
  refine ⟨⟨before.sources, before.part, before.issued, fun known => ?_, fun known => ?_, fun {n f f'} old known => ?_,
    fun {f g f' g'} known known' same => ?_, fun known => ?_⟩, ⟨grows, later⟩, fun known => ?_,
    .inl ⟨mapped, lookupPut.trans (if_pos rfl)⟩⟩
  · rcases List.mem_cons.mp known with same | known
    · cases same
      exact ⟨inside, mapped⟩
    · exact shares.keys known
  · rcases List.mem_cons.mp known with same | known
    · cases same
      exact given
    · exact before.given known
  · rcases List.mem_cons.mp known with same | known
    · cases same
      exact fresh (shares.issued old)
    · exact shares.clear old known
  · rcases List.mem_cons.mp known with here | known <;> rcases List.mem_cons.mp known' with here' | known'
    · cases here
      cases here'
      rfl
    · cases here
      exact absurd same (fresh (shares.given known'))
    · cases here'
      exact absurd same.symm (fresh (shares.given known))
    · exact shares.apart known known' same
  · rcases List.mem_cons.mp known with same | known
    · cases same
      exact follows.mono grows
    · exact (shares.shape known).mono grows
  · rcases List.mem_cons.mp known with same | known
    · cases same
      exact .inr ⟨Nat.le_refl _, new⟩
    · exact .inl known

theorem unmapped (shares : Shares mapping met st) (unmapped : ¬ e.Mapped mapping)
    (h : leads (rename e) st e' st') : e' = e ∧ st' = st := by
  induction e using partsInduction generalizing e' st' with
  | step e ih =>
    obtain ⟨r, s⟩ := st
    obtain ⟨r', s'⟩ := st'
    rcases Pass.runLeads h with entered | ⟨⟨r₁, s₁⟩, ⟨r₂, s₂⟩, ⟨r₃, s₃⟩, n, enter, shape, along, numbered, left⟩
    · obtain ⟨known, _⟩ := Pass.renamingEnters entered
      exact absurd (shares.keys (lookupInside known)).2 unmapped
    obtain ⟨_, same⟩ := Pass.renamingEnters enter
    cases same
    obtain ⟨kept, made⟩ := along.keeps (I := fun u => u = (r, s)) (S := fun c c' => c = c') rfl
      fun c inside {u c' v} before turns => by
        subst before
        obtain ⟨same, stays⟩ := ih c inside (fun mapped => unmapped (mappedPart mapped inside)) turns
        exact ⟨stays, same.symm⟩
    cases kept
    obtain ⟨same, stays⟩ := numbered.resolve_right fun changed =>
      changed.1 (List.forall₂_eq_eq_eq ▸ made : e.parts = n.parts).symm
    cases same
    cases stays
    rcases Pass.renamingLeaves left with ⟨i, o, o', rfl, found, _⟩ | ⟨_, rfl, rfl, rfl⟩
    · exact absurd (mappedReference.mpr (by rw [← shares.sources]; exact fun none => by cases found.symm.trans none))
        unmapped
    · exact ⟨rfl, by rw [noteSame]⟩

theorem parts {es : List Expr} (shares : Shares mapping met st) (inside : met e) (absent : st.1.known? e = none)
    (each : ∀ c ∈ e.parts, ∀ {u c' v}, Shares mapping met u → met c → leads (rename c) u c' v →
      Makes mapping met u c c' v)
    (along : Along Pass.renamingSources.Turns e.parts st es st') :
    (Shares mapping met st' ∧ st.2.node ≤ st'.2.node ∧ ∀ f f', (f, f') ∈ st'.1.images →
      (f, f') ∈ st.1.images ∨ sizeOf f < sizeOf e ∧ st.2.node ≤ f'.id) ∧
      st ≤ st' ∧ List.Forall₂ (Becomes mapping st'.1) e.parts es ∧ st'.1.known? e = none := by
  obtain ⟨kept, later, made⟩ := along.grows
    (I := fun u => Shares mapping met u ∧ st.2.node ≤ u.2.node ∧ ∀ f f', (f, f') ∈ u.1.images →
      (f, f') ∈ st.1.images ∨ sizeOf f < sizeOf e ∧ st.2.node ≤ f'.id)
    (S := fun u => Becomes mapping u.1) ⟨shares, Nat.le_refl _, fun _ _ => .inl⟩
    (fun later _ _ becomes => becomes.mono (Prod.le_def.mp later).1) fun c part u c' v before turns => by
      obtain ⟨shares, more, images⟩ := before
      have makes := each c part shares (shares.part inside part) turns
      have further := (Prod.le_def.mp makes.grows).2.1
      refine ⟨⟨makes.shares, Nat.le_trans more further, fun f f' known => ?_⟩, makes.grows, makes.becomes⟩
      rcases makes.images known with before | ⟨small, new⟩
      · exact images f f' before
      · exact .inr ⟨Nat.lt_of_le_of_lt small (partSize part), Nat.le_trans more new⟩
  exact ⟨kept, later, made, stillAbsent absent fun e' known =>
    (kept.2.2 e e' known).resolve_right fun smaller => Nat.lt_irrefl _ smaller.1⟩

theorem rebuilds (shares : Shares mapping met st) (inside : met e) (mapped : e.Mapped mapping)
    (other : e.asSource? = none) : ¬ List.Forall₂ (Becomes mapping st.1) e.parts e.parts := by
  -- A node with a mapped reference below it is not left as it is, as one of its parts is not.
  intro made
  obtain ⟨c, part, mapped⟩ := mappedBelow mapped other
  rcases List.forall₂_same.mp made c part with ⟨_, known⟩ | ⟨unmapped, _⟩
  · exact shares.clear (shares.part inside part) (lookupInside known) rfl
  · exact unmapped mapped

theorem leave {u : Renaming × Supply} (shares : Shares mapping met st) (inside : met e) (mapped : e.Mapped mapping)
    (absent : st.1.known? e = none) (shape : Rebuilt (fun _ _ => True) e n)
    (made : List.Forall₂ (Becomes mapping st.1) e.parts n.parts)
    (numbered : n = e ∧ st = u ∨ n.parts ≠ e.parts ∧ leads Pass.renamingSources.fresh st n.id u)
    (left : leads (Pass.renamingSources.leave e n) u e' st') : Makes mapping met st e e' st' := by
  obtain ⟨r, s⟩ := st
  obtain ⟨r₁, s₁⟩ := u
  obtain ⟨r', s'⟩ := st'
  have more : s ≤ { s with node := s.node + 1 } := ⟨Nat.le_succ _, Nat.le_refl _, Nat.le_refl _⟩
  rcases Pass.renamingLeaves left with ⟨i, o, o', rfl, found, rfl, rfl, rfl⟩ | ⟨unnamed, rfl, rfl, rfl⟩
  · obtain ⟨_, stays⟩ := numbered.resolve_right fun changed => by cases shape; exact changed.1 rfl
    cases stays
    exact shares.note inside mapped absent (Nat.le_refl _) more (Nat.lt_succ_self _)
      (.inl ⟨i, _, o, o', rfl, shares.sources ▸ found, rfl⟩)
  · have other : e.asSource? = none := by
      cases e with
      | reference i o =>
        rcases numbered with ⟨_, stays⟩ | ⟨changed, _⟩
        · cases stays
          exact absurd (shares.sources ▸ unnamed i o rfl) (mappedReference.mp mapped)
        · cases shape
          exact absurd rfl changed
      | _ => rfl
    rcases numbered with ⟨rfl, _⟩ | ⟨_, fresh⟩
    · exact absurd made (shares.rebuilds inside mapped other)
    · obtain ⟨number, rfl, rfl⟩ := Pass.renamingFresh fresh
      exact shares.note inside mapped absent (Nat.le_of_eq number) more (number ▸ Nat.lt_succ_self _)
        (.inr ⟨other, shape.along made⟩)

theorem rename (shares : Shares mapping met st) (inside : met e) (h : leads (Renamed.rename e) st e' st') :
    Makes mapping met st e e' st' := by
  induction e using partsInduction generalizing st e' st' with
  | step e ih =>
    by_cases mapped : e.Mapped mapping
    · obtain ⟨r, s⟩ := st
      obtain ⟨r', s'⟩ := st'
      rcases Pass.runLeads h with entered | ⟨⟨r₁, s₁⟩, u, v, n, enter, shape, along, numbered, left⟩
      · obtain ⟨known, same⟩ := Pass.renamingEnters entered
        cases same
        exact ⟨shares, le_refl _, .inl, .inl ⟨mapped, known⟩⟩
      · obtain ⟨absent, same⟩ := Pass.renamingEnters enter
        cases same
        obtain ⟨⟨shares, more, images⟩, later, made, absent⟩ := shares.parts inside absent
          (fun c part _ _ _ shares inside turns => ih c part shares inside turns) along
        have makes := shares.leave inside mapped absent shape made numbered left
        refine ⟨makes.shares, le_trans later makes.grows, fun known => ?_, makes.becomes⟩
        rcases makes.images known with before | ⟨size, new⟩
        · exact (images _ _ before).imp id fun ⟨smaller, new⟩ => ⟨Nat.le_of_lt smaller, new⟩
        · exact .inr ⟨size, Nat.le_trans more new⟩
    · obtain ⟨rfl, rfl⟩ := shares.unmapped mapped h
      exact ⟨shares, le_refl _, .inl, .inr ⟨mapped, rfl⟩⟩

theorem widen {wide : Expr → Prop} (shares : Shares mapping met st) (wider : ∀ n, met n → wide n)
    (part : ∀ {e c : Expr}, wide e → c ∈ e.parts → wide c) (issued : ∀ n, wide n → n.id < st.2.node)
    (clear : ∀ {n e e' : Expr}, wide n → (e, e') ∈ st.1.images → e'.id ≠ n.id) : Shares mapping wide st where
  sources := shares.sources
  part := part
  issued inside := issued _ inside
  keys known := ⟨wider _ (shares.keys known).1, (shares.keys known).2⟩
  given := shares.given
  clear := clear
  apart := shares.apart
  shape := shares.shape

theorem below (shares : Shares mapping met st) (becomes : Becomes mapping st.1 e e') (inside : n ∈ e.nodes) :
    ∃ n', Becomes mapping st.1 n n' := by
  induction e using partsInduction generalizing e' with
  | step e ih =>
    rcases memNodes.mp inside with rfl | ⟨c, part, below⟩
    · exact ⟨e', becomes⟩
    · rcases becomes with ⟨_, known⟩ | ⟨unmapped, _⟩
      · rcases shares.shape (lookupInside known) with ⟨_, _, _, _, rfl, _⟩ | ⟨_, rebuilt⟩
        · cases part
        · obtain ⟨c', _, becomes⟩ := partFrom rebuilt.parts.flip part
          exact ih c part becomes below
      · exact ⟨n, .inr ⟨fun mapped => unmapped (mappedNode mapped inside), rfl⟩⟩

theorem apartBecome {a b a' b' : Expr} (shares : Shares mapping met st) (left : met a) (right : met b)
    (becomes : Becomes mapping st.1 a a') (becomes' : Becomes mapping st.1 b b') (same : a'.id = b'.id) :
    a = b ∨ a' = a ∧ b' = b := by
  rcases becomes with ⟨_, known⟩ | ⟨_, rfl⟩ <;> rcases becomes' with ⟨_, known'⟩ | ⟨_, rfl⟩
  · exact .inl (shares.apart (lookupInside known) (lookupInside known') same)
  · exact absurd same (shares.clear right (lookupInside known))
  · exact absurd same.symm (shares.clear left (lookupInside known'))
  · exact .inr ⟨rfl, rfl⟩

theorem again {f : Expr} (shares : Shares mapping met st) (becomes : Becomes mapping st.1 e f)
    (h : leads (Renamed.rename e) st e' st') : e' = f ∧ st' = st := by
  rcases becomes with ⟨_, known⟩ | ⟨unmapped, rfl⟩
  · obtain ⟨r, s⟩ := st
    obtain ⟨r', s'⟩ := st'
    rcases Pass.runLeads h with entered | ⟨⟨r₁, s₁⟩, _, _, _, enter, _⟩
    · obtain ⟨found, same⟩ := Pass.renamingEnters entered
      exact ⟨Option.some.inj (found.symm.trans known), same.symm⟩
    · cases (Pass.renamingEnters enter).1.symm.trans known
  · exact shares.unmapped unmapped h

end Shares

structure Replacement where
  before : Expr
  after : Expr
  first : Nat
  next : Nat

def Replacement.Made (c : Replacement) (i : Nat) : Prop := c.first ≤ i ∧ i < c.next

instance {c : Replacement} {i : Nat} : Decidable (c.Made i) := inferInstanceAs (Decidable (_ ∧ _))

def Met (done : List Replacement) (n : Expr) : Prop := ∃ c ∈ done, n ∈ c.before.nodes

/-- What a context comes to by replacing references in expressions one after another, and with time. No expression has a
node that an earlier call of the context made. -/
inductive Replaced (mapping : List (Nat × Source)) : List Replacement → Renaming × Supply → Prop where
  | start {s : Supply} : Replaced mapping [] (⟨mapping, []⟩, s)
  | later {done : List Replacement} {r : Renaming} {s t : Supply} (run : Replaced mapping done (r, s)) (later : s ≤ t) :
      Replaced mapping done (r, t)
  | replace {done : List Replacement} {st st' : Renaming × Supply} {e e' : Expr} (run : Replaced mapping done st)
      (issued : ∀ n ∈ e.nodes, n.id < st.2.node) (original : ∀ n ∈ e.nodes, ∀ c ∈ done, ¬ c.Made n.id)
      (renamed : leads (rename e) st e' st') : Replaced mapping (⟨e, e', st.2.node, st'.2.node⟩ :: done) st'

/-- What becomes of nodes when references to mapped sources become references to their images: one node of each, the
node itself without such a reference, and else a node that is like it over what becomes of its parts. -/
structure Faithful (mapping : List (Nat × Source)) (among : Expr → Prop) (image : Expr → Expr) : Prop where
  apart {a b : Expr} : among a → among b → (image a = image b ↔ a = b)
  identified (determined : ∀ a b, among a → among b → a.id = b.id → a = b) {a b : Expr} :
    among a → among b → ((image a).id = (image b).id ↔ a.id = b.id)
  kept {n : Expr} : among n → (image n = n ↔ ¬ n.Mapped mapping)
  reference {i : Nat} {o : Source} : among (.reference i o) →
    ∃ j, image (.reference i o) = .reference j ((mapping.lookup o.id).getD o)
  other {n : Expr} : among n → n.asSource? = none → Rebuilt (fun c c' => c' = image c) n (image n)

theorem Faithful.nodes {among : Expr → Prop} {image : Expr → Expr} (faithful : Faithful mapping among image)
    (part : ∀ {e c : Expr}, among e → c ∈ e.parts → among c) (inside : among e) :
    (image e).nodes = e.nodes.map image := by
  induction e using partsInduction with
  | step e ih =>
    have parts : (image e).parts = e.parts.map image := by
      cases other : e.asSource? with
      | none => exact List.forall₂_eq_eq_eq ▸ List.forall₂_map_right_iff.mpr (faithful.other inside other).parts.flip
      | some o =>
        cases e with
        | reference i p =>
          obtain ⟨j, same⟩ := faithful.reference inside
          rw [same]
          rfl
        | _ => cases other
    rw [nodesParts, nodesParts, parts, List.map_cons, List.map_flatMap, List.flatMap_map]
    exact congrArg _ (List.flatMap_congr fun c below => ih c below (part inside below))

def image (r : Renaming) (e : Expr) : Expr := (r.known? e).getD e

namespace Replaced
variable {done : List Replacement}

theorem metPart {c : Expr} (inside : Met done e) (part : c ∈ e.parts) : Met done c :=
  inside.imp fun _ both => ⟨both.1, nodesBelow both.2 part⟩

theorem metCons {c : Replacement} : Met (c :: done) n ↔ n ∈ c.before.nodes ∨ Met done n := by simp [Met]

theorem nothingMet : Shares mapping (Met []) (⟨mapping, []⟩, s) := by
  refine ⟨rfl, metPart, fun none => ?_, fun none => ?_, fun none => ?_, fun _ none => ?_, fun none => ?_, fun none => ?_⟩
  · obtain ⟨_, none, _⟩ := none
    cases none
  all_goals cases none

theorem shares (run : Replaced mapping done st) : Shares mapping (Met done) st ∧
    (∀ f f', (f, f') ∈ st.1.images → ∃ c ∈ done, c.Made f'.id) ∧ ∀ c ∈ done, Becomes mapping st.1 c.before c.after := by
  induction run with
  | start => exact ⟨nothingMet, fun _ _ none => (by cases none), fun _ none => by cases none⟩
  | later _ later ih => exact ⟨ih.1.later later, ih.2⟩
  | @replace done st st' e e' _ issued original renamed ih =>
    obtain ⟨shares, made, became⟩ := ih
    have wide : Shares mapping (Met (⟨e, e', st.2.node, st'.2.node⟩ :: done)) st := by
      refine shares.widen (fun n inside => metCons.mpr (.inr inside)) metPart (fun n inside => ?_)
        fun {n f f'} inside known => ?_
      · exact (metCons.mp inside).elim (issued n) shares.issued
      · rcases metCons.mp inside with node | before
        · obtain ⟨c, member, made⟩ := made f f' known
          exact fun same => original n node c member (same ▸ made)
        · exact shares.clear before known
    have makes := wide.rename (metCons.mpr (.inl (selfNode e))) renamed
    refine ⟨makes.shares, fun f f' known => ?_, List.forall_mem_cons.mpr ⟨makes.becomes, fun c inside => ?_⟩⟩
    · rcases makes.images known with before | ⟨_, new⟩
      · obtain ⟨c, member, made⟩ := made f f' before
        exact ⟨c, List.mem_cons_of_mem _ member, made⟩
      · exact ⟨_, List.mem_cons_self, new, makes.shares.given known⟩
    · exact (became c inside).mono (Prod.le_def.mp makes.grows).1

theorem becomes (run : Replaced mapping done st) (inside : Met done n) : Becomes mapping st.1 n (st.1.image n) := by
  obtain ⟨shares, _, became⟩ := run.shares
  obtain ⟨c, member, node⟩ := inside
  obtain ⟨n', becomes⟩ := shares.below (became c member) node
  suffices same : st.1.image n = n' from same ▸ becomes
  unfold image
  rcases becomes with ⟨_, known⟩ | ⟨unmapped, rfl⟩
  · rw [known, Option.getD_some]
  · cases found : st.1.known? n' with
    | none => rfl
    | some f => exact absurd (shares.keys (lookupInside found)).2 unmapped

theorem imageKept (run : Replaced mapping done st) (inside : Met done n) : st.1.image n = n ↔ ¬ n.Mapped mapping := by
  rcases run.becomes inside with ⟨mapped, known⟩ | ⟨unmapped, same⟩
  · have changed : st.1.image n ≠ n := fun same =>
      run.shares.1.clear inside (lookupInside known) (congrArg Expr.id same)
    exact ⟨fun same => absurd same changed, fun unmapped => absurd mapped unmapped⟩
  · exact ⟨fun _ => unmapped, fun _ => same⟩

theorem imageReference {i : Nat} {o : Source} (run : Replaced mapping done st) (inside : Met done (.reference i o)) :
    ∃ j, st.1.image (.reference i o) = .reference j ((mapping.lookup o.id).getD o) := by
  rcases run.becomes inside with ⟨_, known⟩ | ⟨unmapped, same⟩
  · rcases run.shares.1.shape (lookupInside known) with ⟨_, j, _, o', this, found, same⟩ | ⟨none, _⟩
    · cases this
      exact ⟨j, by rw [same, found, Option.getD_some]⟩
    · cases none
  · have absent : mapping.lookup o.id = none := not_not.mp fun found => unmapped (mappedReference.mpr found)
    exact ⟨i, by rw [same, absent, Option.getD_none]⟩

theorem imageOther (run : Replaced mapping done st) (inside : Met done n) (other : n.asSource? = none) :
    Rebuilt (fun c c' => c' = st.1.image c) n (st.1.image n) := by
  rcases run.becomes inside with ⟨_, known⟩ | ⟨unmapped, same⟩
  · rcases run.shares.1.shape (lookupInside known) with ⟨_, _, _, _, rfl, _⟩ | ⟨_, rebuilt⟩
    · cases other
    · exact rebuilt.mono fun c part c' becomes => becomes.only (run.becomes (metPart inside part))
  · rw [same]
    refine rebuiltSelf fun c part => Eq.symm ((run.imageKept (metPart inside part)).mpr ?_)
    exact fun mapped => unmapped (mappedPart mapped part)

theorem imageFaithful (run : Replaced mapping done st) : Faithful mapping (Met done) st.1.image where
  apart {a b} left right := by
    refine ⟨fun same => ?_, congrArg _⟩
    rcases run.shares.1.apartBecome left right (run.becomes left) (run.becomes right) (congrArg Expr.id same) with
      one | ⟨stays, stays'⟩
    · exact one
    · exact stays.symm.trans (same.trans stays')
  identified determined {a b} left right := by
    refine ⟨fun same => ?_, fun same => congrArg (Expr.id ∘ st.1.image) (determined a b left right same)⟩
    rcases run.shares.1.apartBecome left right (run.becomes left) (run.becomes right) same with one | ⟨stays, stays'⟩
    · exact congrArg Expr.id one
    · rwa [stays, stays'] at same
  kept := run.imageKept
  reference := run.imageReference
  other := run.imageOther

/-- What became of the nodes of all expressions that references were replaced in, at every depth and by whatever calls, is
one faithful image. Every call came to the image of its expression, node by node, and calls on nodes that were met come to
their images and change nothing. -/
theorem replacesFaithfully (run : Replaced mapping done st) :
    ∃ image : Expr → Expr, Faithful mapping (Met done) image ∧
      (∀ c ∈ done, c.after = image c.before ∧ c.after.nodes = c.before.nodes.map image) ∧
      ∀ n, Met done n → ((rename n).run st.1).run st.2 = ((image n, st.1), st.2) := by
  obtain ⟨shares, _, became⟩ := run.shares
  refine ⟨st.1.image, run.imageFaithful, fun c inside => ?_, fun n inside => ?_⟩
  · have met : Met done c.before := ⟨c, inside, selfNode _⟩
    have same : c.after = st.1.image c.before := (became c inside).only (run.becomes met)
    exact ⟨same, same ▸ run.imageFaithful.nodes metPart met⟩
  · rcases result : ((rename n).run st.1).run st.2 with ⟨⟨e', r'⟩, s'⟩
    have renamed : leads (rename n) st e' (r', s') := result
    obtain ⟨rfl, same⟩ := shares.again (run.becomes inside) renamed
    rw [← same]

theorem call (run : Replaced mapping done st) (issued : ∀ n ∈ e.nodes, n.id < st.2.node)
    (original : ∀ n ∈ e.nodes, ∀ c ∈ done, ¬ c.Made n.id) :
    let result := ((rename e).run st.1).run st.2
    Replaced mapping (⟨e, result.1.1, st.2.node, result.2.node⟩ :: done) (result.1.2, result.2) := by
  intro result
  have renamed : leads (rename e) st result.1.1 (result.1.2, result.2) := rfl
  exact run.replace issued original renamed

def successor (i j : Nat) (s : Source) : Expr := .binary i .int .add (.reference j s) (.constant 1 .int (.integer 1))

/- The sum is replaced as a part of a product, then as a part of a node that was made later, then on its own. -/
theorem replacesFaithfullyOfSum : ∃ (s s' t : Source) (mapping : List (Nat × Source)) (done : List Replacement)
    (st : Renaming × Supply), Replaced mapping done st ∧ mapping = [(s.id, s')] ∧ s'.id ≠ s.id ∧
    done.map (fun c => (c.before, c.after)) = [(successor 2 0 s, successor 6 5 s'),
      (.unary 10 .int .negate (successor 2 0 s), .unary 11 .int .negate (successor 6 5 s')),
      (.binary 4 .int .multiply (successor 2 0 s) (.reference 3 t),
        .binary 7 .int .multiply (successor 6 5 s') (.reference 3 t))] ∧
    ∃ image : Expr → Expr, Faithful mapping (Met done) image ∧
      (∀ c ∈ done, c.after = image c.before ∧ c.after.nodes = c.before.nodes.map image) ∧
      ∀ n, Met done n → ((rename n).run st.1).run st.2 = ((image n, st.1), st.2) := by
  let s : Source := ⟨0, "s", .int⟩
  let s' : Source := ⟨2, "s", .int⟩
  let t : Source := ⟨1, "t", .int⟩
  have start : Replaced [(s.id, s')] [] (⟨[(s.id, s')], []⟩, ⟨5, 0, 3⟩) := .start
  have first := start.call (e := .binary 4 .int .multiply (successor 2 0 s) (.reference 3 t)) (by decide +kernel)
    (by simp)
  have further := first.later (t := ⟨11, 0, 3⟩) ⟨by decide +kernel, by decide +kernel, by decide +kernel⟩
  have second := further.call (e := .unary 10 .int .negate (successor 2 0 s)) (by decide +kernel) (by decide +kernel)
  have third := second.call (e := successor 2 0 s) (by decide +kernel) (by decide +kernel)
  exact ⟨s, s', t, _, _, _, third, rfl, by decide +kernel, by decide +kernel, replacesFaithfully third⟩

end Replaced

end Renaming

end SymbolicQuery
