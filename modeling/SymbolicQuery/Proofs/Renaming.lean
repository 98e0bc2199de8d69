import Mathlib.Order.Basic
import SymbolicQuery.Proofs.Correspondence
import SymbolicQuery.Proofs.Layering

/-! What a renaming makes of expressions. Every node that refers to a renamed source has one image, made when the
node was met first; images are new nodes, so no two nodes share one, and none is a node that was there
before. All other nodes stay as they are. -/
namespace SymbolicQuery
open Results SymbolicQuery.Expr

namespace Renaming
variable {r : Renaming} {e e' f : Expr} {s s' : Source}

instance : Preorder Renaming where
  le r r' := (∀ e e', r.known? e = some e' → r'.known? e = some e') ∧
    ∀ id s, r.lookup? id = some s → r'.lookup? id = some s
  le_refl _ := ⟨fun _ _ h => h, fun _ _ h => h⟩
  le_trans _ _ _ first next :=
    ⟨fun e e' h => next.1 e e' (first.1 e e' h), fun id s h => next.2 id s (first.2 id s h)⟩

theorem lookupInside {α β : Type} [DecidableEq α] {as : List (α × β)} {a : α} {b : β} (found : as.lookup a = some b) :
    (a, b) ∈ as := by
  obtain ⟨before, after, rfl, _⟩ := List.lookup_eq_some_iff.mp found
  exact List.mem_append_right _ List.mem_cons_self

theorem lookupAbsent {α β : Type} [DecidableEq α] {as : List (α × β)} {a : α} {b : β} (absent : as.lookup a = none) :
    (a, b) ∉ as := by
  intro inside
  have other := List.lookup_eq_none_iff.mp absent _ inside
  simp at other

theorem lookupPut {α β : Type} [DecidableEq α] {as : List (α × β)} {a c : α} {b : β} :
    ((a, b) :: as).lookup c = if c = a then some b else as.lookup c := by
  by_cases same : c = a
  · rw [if_pos same, same, List.lookup_cons_self]
  · rw [if_neg same, List.lookup_cons, beq_eq_false_iff_ne.mpr same]

theorem noteChanged (changed : e' ≠ e) : r.note e e' = { r with images := (e, e') :: r.images } := if_neg changed

theorem noteSame : r.note e e = r := if_pos rfl

theorem growsBy (e' : Expr) (absent : r.known? e = none) : r ≤ { r with images := (e, e') :: r.images } := by
  refine ⟨fun f f' known => lookupPut.trans ?_, fun _ _ known => known⟩
  rw [if_neg]
  · exact known
  · rintro rfl
    cases absent.symm.trans known

theorem stillAbsent {r' : Renaming} (absent : r.known? e = none)
    (images : ∀ e', (e, e') ∈ r'.images → (e, e') ∈ r.images) : r'.known? e = none := by
  cases found : r'.known? e with
  | none => rfl
  | some e' => exact absurd (images e' (lookupInside found)) (lookupAbsent absent)

end Renaming

namespace Pass
variable {r r' : Renaming} {s s' : Supply} {e n : Expr}

theorem renamingEnters {o : Option Expr} (h : leads (renamingSources.enter e) (r, s) o (r', s')) :
    r.known? e = o ∧ (r, s) = (r', s') := by
  cases h
  exact ⟨rfl, rfl⟩

theorem renamingFresh {i : Nat} (h : leads renamingSources.fresh (r, s) i (r', s')) :
    s.node = i ∧ r = r' ∧ { s with node := s.node + 1 } = s' := by
  cases h
  exact ⟨rfl, rfl, rfl⟩

theorem renamingLeaves {e' : Expr} (h : leads (renamingSources.leave e n) (r, s) e' (r', s')) :
    (∃ i o o', e = .reference i o ∧ r.lookup? o.id = some o' ∧ e' = .reference s.node o' ∧
      s' = { s with node := s.node + 1 } ∧ r' = r.note e e') ∨
    (∀ i o, e = .reference i o → r.lookup? o.id = none) ∧ e' = n ∧ s' = s ∧ r' = r.note e n := by
  unfold renamingSources at h
  dsimp only at h
  cases e with
  | reference i o =>
    obtain ⟨known, ⟨r₁, s₁⟩, got, settled⟩ := Threaded.ofBind h
    cases got
    split at settled
    · rename_i o' found
      cases settled
      exact .inl ⟨i, o, o', rfl, found, rfl, rfl, rfl⟩
    · rename_i absent
      cases settled
      refine .inr ⟨fun j p same => ?_, rfl, rfl, rfl⟩
      cases same
      exact absent
  | _ =>
    cases h
    exact .inr ⟨fun _ _ same => (by cases same), rfl, rfl, rfl⟩

end Pass

/-- The ground on which a query is copied: the sources that are its own, the supply before they were given out,
the one after the query was made, and the one from which the copy is made. -/
structure Ground where
  first : Supply
  issued : Supply
  base : Supply
  own : Source → Prop
  later : issued ≤ base
  newer {o : Source} : own o → first.source ≤ o.id
  given {o : Source} : own o → o.id < issued.source
  apart {o o' : Source} : own o → own o' → o.id = o'.id → o = o'

namespace Ground
variable (G : Ground) {r r' : Renaming} {s s' : Supply} {e e' n : Expr} {st st' : Renaming × Supply}

def Touches (e : Expr) : Prop := ∃ i o, .reference i o ∈ e.nodes ∧ G.own o

def Covers (e : Expr) : Prop := e.Every (Issued G.issued fun o => G.own o ∨ o.id < G.first.source)

def Image (r : Renaming) (e e' : Expr) : Prop :=
  G.Covers e ∧ (G.Touches e ∧ r.known? e = some e' ∨ ¬ G.Touches e ∧ e' = e)

def SourceImage (r : Renaming) (o o' : Source) : Prop :=
  G.own o ∧ r.lookup? o.id = some o' ∨ o.id < G.first.source ∧ o' = o

def Shaped (r : Renaming) (e e' : Expr) : Prop :=
  (∃ i j o o', e = .reference i o ∧ e' = .reference j o' ∧ G.SourceImage r o o') ∨
    e.asSource? = none ∧ Rebuilt (G.Image r) e e'

structure Tracks (st : Renaming × Supply) : Prop where
  later : G.base ≤ st.2
  keys {e e' : Expr} : (e, e') ∈ st.1.images → G.Covers e ∧ G.Touches e
  fresh {e e' : Expr} : (e, e') ∈ st.1.images → G.base.node ≤ e'.id ∧ e'.id < st.2.node
  apart {e f e' : Expr} : (e, e') ∈ st.1.images → (f, e') ∈ st.1.images → e = f
  shape {e e' : Expr} : (e, e') ∈ st.1.images → G.Shaped st.1 e e'
  sources {id : Nat} {o' : Source} : (id, o') ∈ st.1.sources →
    (∃ o, G.own o ∧ o.id = id ∧ o'.itemType = o.itemType) ∧ G.base.source ≤ o'.id ∧ o'.id < st.2.source
  sourcesApart {id id' : Nat} {o o' : Source} :
    (id, o) ∈ st.1.sources → (id', o') ∈ st.1.sources → o.id = o'.id → id = id'

variable {G}

theorem Image.mono (image : G.Image r e e') (later : r ≤ r') : G.Image r' e e' :=
  ⟨image.1, image.2.imp (fun both => ⟨both.1, later.1 _ _ both.2⟩) id⟩

theorem SourceImage.mono {o o' : Source} (image : G.SourceImage r o o') (later : r ≤ r') : G.SourceImage r' o o' :=
  image.imp (fun both => ⟨both.1, later.2 _ _ both.2⟩) id

theorem Shaped.mono (shaped : G.Shaped r e e') (later : r ≤ r') : G.Shaped r' e e' := by
  rcases shaped with ⟨i, j, o, o', rfl, rfl, image⟩ | ⟨other, rebuilt⟩
  · exact .inl ⟨i, j, o, o', rfl, rfl, image.mono later⟩
  · exact .inr ⟨other, rebuilt.mono fun _ _ _ image => image.mono later⟩

theorem Covers.part {c : Expr} (covers : G.Covers e) (inside : c ∈ e.parts) : G.Covers c := Every.part covers inside

theorem touchesPart {c : Expr} (touches : G.Touches c) (inside : c ∈ e.parts) : G.Touches e := by
  obtain ⟨i, o, below, own⟩ := touches
  exact ⟨i, o, memNodes.mpr (.inr ⟨c, inside, below⟩), own⟩

theorem touchesBelow (touches : G.Touches e) (other : e.asSource? = none) : ∃ c ∈ e.parts, G.Touches c := by
  obtain ⟨i, o, inside, own⟩ := touches
  rcases memNodes.mp inside with rfl | ⟨c, part, below⟩
  · cases other
  · exact ⟨c, part, i, o, below, own⟩

theorem Covers.reference {i : Nat} {o : Source} (covers : G.Covers (.reference i o)) :
    G.own o ∨ o.id < G.first.source := covers.here.2

theorem Tracks.renewed (tracks : G.Tracks st) (covers : G.Covers n) (known : (e, e') ∈ st.1.images) : e' ≠ n := by
  rintro rfl
  exact absurd (Nat.lt_of_lt_of_le covers.here.1 G.later.1) (Nat.not_lt.mpr (tracks.fresh known).1)

theorem Tracks.owned (tracks : G.Tracks st) {i : Nat} {o o' : Source} (covers : G.Covers (.reference i o))
    (found : st.1.lookup? o.id = some o') : G.own o := by
  rcases covers.reference with own | old
  · exact own
  · obtain ⟨⟨p, own, same, _⟩, _⟩ := tracks.sources (Renaming.lookupInside found)
    exact absurd (same ▸ old) (Nat.not_lt.mpr (G.newer own))

theorem Tracks.supplies (tracks : G.Tracks (r, s)) (later : s ≤ s') : G.Tracks (r, s') where
  later := le_trans tracks.later later
  keys := tracks.keys
  fresh known := ⟨(tracks.fresh known).1, Nat.lt_of_lt_of_le (tracks.fresh known).2 later.1⟩
  apart := tracks.apart
  shape := tracks.shape
  sources known := ⟨(tracks.sources known).1, (tracks.sources known).2.1,
    Nat.lt_of_lt_of_le (tracks.sources known).2.2 later.2.2⟩
  sourcesApart := tracks.sourcesApart

structure Makes (G : Ground) (st : Renaming × Supply) (e e' : Expr) (st' : Renaming × Supply) : Prop where
  tracks : G.Tracks st'
  later : st ≤ st'
  sources : st'.1.sources = st.1.sources
  supply : st'.2.source = st.2.source
  images {f f' : Expr} : (f, f') ∈ st'.1.images → (f, f') ∈ st.1.images ∨ sizeOf f ≤ sizeOf e
  image : G.Image st'.1 e e'

theorem Tracks.note (tracks : G.Tracks (r, s)) (absent : r.known? e = none) (covers : G.Covers e)
    (touches : G.Touches e) (new : s.node ≤ e'.id) (later : s ≤ s') (given : e'.id < s'.node)
    (supply : s'.source = s.source)
    (shaped : G.Shaped r e e') : G.Makes (r, s) e e' (r.note e e', s') := by
  have started : G.base.node ≤ e'.id := Nat.le_trans tracks.later.1 new
  have changed : e' ≠ e := by
    rintro rfl
    exact absurd (Nat.lt_of_lt_of_le covers.here.1 G.later.1) (Nat.not_lt.mpr started)
  have unused : ∀ {f}, (f, e') ∉ r.images := fun inside =>
    absurd (tracks.fresh inside).2 (Nat.not_lt.mpr new)
  rw [Renaming.noteChanged changed]
  have grows := Renaming.growsBy e' absent
  have before := tracks.supplies later
  -- each property is kept by the entries that were there and has to be shown for the new one
  refine ⟨⟨before.later, fun {f f'} inside => ?_, fun {f f'} inside => ?_, fun {f g f'} inside inside' => ?_,
    fun {f f'} inside => ?_, before.sources, tracks.sourcesApart⟩, ⟨grows, later⟩, rfl, supply, fun inside => ?_,
    covers, .inl ⟨touches, Renaming.lookupPut.trans (if_pos rfl)⟩⟩
  · rcases List.mem_cons.mp inside with same | known
    · cases same
      exact ⟨covers, touches⟩
    · exact tracks.keys known
  · rcases List.mem_cons.mp inside with same | known
    · cases same
      exact ⟨started, given⟩
    · exact before.fresh known
  · rcases List.mem_cons.mp inside with same | known <;> rcases List.mem_cons.mp inside' with same' | known'
    · cases same
      cases same'
      rfl
    · cases same
      exact absurd known' unused
    · cases same'
      exact absurd known unused
    · exact tracks.apart known known'
  · rcases List.mem_cons.mp inside with same | known
    · cases same
      exact shaped.mono grows
    · exact (tracks.shape known).mono grows
  · rcases List.mem_cons.mp inside with same | known
    · cases same
      exact .inr (Nat.le_refl _)
    · exact .inl known

theorem Tracks.untouched (tracks : G.Tracks st) (image : G.Image st.1 e e) : ¬ G.Touches e := by
  rcases image.2 with ⟨_, known⟩ | ⟨untouched, _⟩
  · exact absurd rfl (tracks.renewed image.1 (Renaming.lookupInside known))
  · exact untouched

theorem imagesSame {es es' : List Expr} (images : List.Forall₂ (G.Image r) es es') (untouched : ∀ c ∈ es, ¬ G.Touches c) :
    es' = es := by
  induction images with
  | nil => rfl
  | cons image _ ih =>
    obtain ⟨here, later⟩ := List.forall_mem_cons.mp untouched
    rcases image.2 with ⟨touches, _⟩ | ⟨_, same⟩
    · exact absurd touches here
    · rw [same, ih later]

theorem Tracks.parts {es : List Expr} (tracks : G.Tracks st) (absent : st.1.known? e = none)
    (each : ∀ c ∈ e.parts, ∀ {u c' v}, G.Tracks u → u.1.sources = st.1.sources →
      leads (Renamed.rename c) u c' v → G.Makes u c c' v)
    (along : Along Pass.renamingSources.Turns e.parts st es st') :
    (G.Tracks st' ∧ st'.1.sources = st.1.sources ∧ st'.2.source = st.2.source ∧
      ∀ f f', (f, f') ∈ st'.1.images → (f, f') ∈ st.1.images ∨ sizeOf f < sizeOf e) ∧
      st ≤ st' ∧ List.Forall₂ (G.Image st'.1) e.parts es ∧ st'.1.known? e = none := by
  -- The parts of a node get their images first. The node itself is none of the nodes that are
  -- met meanwhile.
  obtain ⟨kept, later, made⟩ := along.grows
    (I := fun u => G.Tracks u ∧ u.1.sources = st.1.sources ∧ u.2.source = st.2.source ∧
      ∀ f f', (f, f') ∈ u.1.images → (f, f') ∈ st.1.images ∨ sizeOf f < sizeOf e)
    (S := fun u => G.Image u.1) ⟨tracks, rfl, rfl, fun _ _ => .inl⟩
    (fun later _ _ image => image.mono (Prod.le_def.mp later).1) fun c inside u c' v before turns => by
      obtain ⟨tracks, sources, supply, images⟩ := before
      have makes := each c inside tracks sources turns
      refine ⟨⟨makes.tracks, makes.sources.trans sources, makes.supply.trans supply, fun f f' known => ?_⟩,
        makes.later, makes.image⟩
      rcases makes.images known with before | small
      · exact images f f' before
      · exact .inr (Nat.lt_of_le_of_lt small (partSize inside))
  exact ⟨kept, later, made, Renaming.stillAbsent absent fun e' known =>
    (kept.2.2.2 e e' known).resolve_right (Nat.lt_irrefl _)⟩

theorem Tracks.leave {u : Renaming × Supply} (tracks : G.Tracks st) (covers : G.Covers e) (absent : st.1.known? e = none)
    (named : ∀ i o, e = .reference i o → G.own o → st.1.lookup? o.id ≠ none)
    (shape : Rebuilt (fun _ _ => True) e n) (made : List.Forall₂ (G.Image st.1) e.parts n.parts)
    (numbered : n = e ∧ st = u ∨ n.parts ≠ e.parts ∧ leads Pass.renamingSources.fresh st n.id u)
    (left : leads (Pass.renamingSources.leave e n) u e' st') : G.Makes st e e' st' := by
  obtain ⟨r, s⟩ := st
  obtain ⟨r₁, s₁⟩ := u
  obtain ⟨r', s'⟩ := st'
  have more : s ≤ { s with node := s.node + 1 } := ⟨Nat.le_succ _, Nat.le_refl _, Nat.le_refl _⟩
  rcases Pass.renamingLeaves left with ⟨i, o, o', rfl, found, rfl, rfl, rfl⟩ | ⟨unnamed, rfl, rfl, rfl⟩
  · obtain ⟨_, stays⟩ := numbered.resolve_right fun changed => by cases shape; exact changed.1 rfl
    cases stays
    have own := tracks.owned covers found
    exact tracks.note absent covers ⟨i, o, selfNode _, own⟩ (Nat.le_refl _) more (Nat.lt_succ_self _) rfl
      (.inl ⟨i, _, o, o', rfl, rfl, .inl ⟨own, found⟩⟩)
  · -- the node is kept as it is if no part has changed, and gets an identity if one has
    rcases numbered with ⟨rfl, stays⟩ | ⟨changed, fresh⟩
    · cases stays
      have untouched : ¬ G.Touches e' := by
        intro touches
        cases other : e'.asSource? with
        | none =>
          obtain ⟨c, inside, touched⟩ := touchesBelow touches other
          exact tracks.untouched (List.forall₂_same.mp made c inside) touched
        | some o =>
          cases e' with
          | reference i o =>
            obtain ⟨j, p, inside, own⟩ := touches
            cases List.mem_singleton.mp inside
            exact named i o rfl own (unnamed i o rfl)
          | _ => cases other
      rw [Renaming.noteSame]
      exact ⟨tracks, le_refl _, rfl, rfl, .inl, covers, .inr ⟨untouched, rfl⟩⟩
    · obtain ⟨number, rfl, rfl⟩ := Pass.renamingFresh fresh
      have touches : G.Touches e := by
        by_contra untouched
        exact changed (imagesSame made fun c inside touched => untouched (touchesPart touched inside))
      have other : e.asSource? = none := by
        cases shape with
        | reference => exact absurd rfl changed
        | _ => rfl
      exact tracks.note absent covers touches (Nat.le_of_eq number) more (number ▸ Nat.lt_succ_self _) rfl
        (.inr ⟨other, shape.along made⟩)

theorem Tracks.rename (tracks : G.Tracks st) (covers : G.Covers e)
    (named : ∀ i o, .reference i o ∈ e.nodes → G.own o → st.1.lookup? o.id ≠ none)
    (h : leads (Renamed.rename e) st e' st') : G.Makes st e e' st' := by
  induction e using partsInduction generalizing st e' st' with
  | step e ih =>
    obtain ⟨r, s⟩ := st
    obtain ⟨r', s'⟩ := st'
    rcases Pass.runLeads h with entered | ⟨⟨r₁, s₁⟩, u, v, n, enter, shape, along, numbered, left⟩
    · obtain ⟨known, same⟩ := Pass.renamingEnters entered
      cases same
      have image : G.Image r e e' :=
        ⟨covers, .inl ⟨(tracks.keys (Renaming.lookupInside known)).2, known⟩⟩
      exact ⟨tracks, le_refl _, rfl, rfl, .inl, image⟩
    · obtain ⟨absent, same⟩ := Pass.renamingEnters enter
      cases same
      have still : ∀ {u : Renaming × Supply}, u.1.sources = r.sources →
          ∀ i o, .reference i o ∈ e.nodes → G.own o → u.1.lookup? o.id ≠ none := by
        intro u same i o inside own
        unfold Renaming.lookup?
        rw [same]
        exact named i o inside own
      obtain ⟨⟨tracks, sources, supply, images⟩, later, made, absent⟩ := tracks.parts absent
        (fun c inside _ _ _ tracks same turns => ih c inside tracks (covers.part inside)
          (fun i o below => still same i o (memNodes.mpr (.inr ⟨c, inside, below⟩))) turns) along
      have makes := tracks.leave covers absent (fun i o same => still sources i o (same ▸ selfNode _)) shape made
        numbered left
      exact ⟨makes.tracks, le_trans later makes.later, makes.sources.trans sources, makes.supply.trans supply,
        fun known => (makes.images known).elim (fun before => (images _ _ before).imp id Nat.le_of_lt) .inr,
        makes.image⟩

theorem Tracks.add {o : Source} (tracks : G.Tracks (r, s)) (o' : Source) (own : G.own o) (absent : ∀ p, (o.id, p) ∉ r.sources)
    (ty : o'.itemType = o.itemType) (started : G.base.source ≤ o'.id) (given : o'.id < s.source)
    (new : ∀ id p, (id, p) ∈ r.sources → p.id ≠ o'.id) :
    G.Tracks (r.add o o', s) ∧ r ≤ r.add o o' ∧ (r.add o o').lookup? o.id = some o' := by
  have grows : r ≤ r.add o o' := by
    refine ⟨fun _ _ known => known, fun id p found => Renaming.lookupPut.trans ?_⟩
    rw [if_neg]
    · exact found
    · rintro rfl
      exact absent p (Renaming.lookupInside found)
  refine ⟨⟨tracks.later, tracks.keys, tracks.fresh, tracks.apart, fun known => (tracks.shape known).mono grows,
    fun {id p} inside => ?_, fun {id id' p p'} inside inside' same => ?_⟩, grows,
    Renaming.lookupPut.trans (if_pos rfl)⟩
  · rcases List.mem_cons.mp inside with same | known
    · cases same
      exact ⟨⟨o, own, rfl, ty⟩, started, given⟩
    · exact tracks.sources known
  · rcases List.mem_cons.mp inside with here | known <;> rcases List.mem_cons.mp inside' with here' | known'
    · cases here
      cases here'
      rfl
    · cases here
      exact absurd same.symm (new _ _ known')
    · cases here'
      exact absurd same (new _ _ known)
    · exact tracks.sourcesApart known known' same

theorem Tracks.image (tracks : G.Tracks st) {o o' : Source} (image : G.SourceImage st.1 o o') :
    o'.itemType = o.itemType ∧
      (G.own o ∧ G.base.source ≤ o'.id ∨ o.id < G.first.source ∧ o' = o) := by
  rcases image with ⟨own, found⟩ | ⟨old, same⟩
  · obtain ⟨⟨p, own', same, ty⟩, started, _⟩ := tracks.sources (Renaming.lookupInside found)
    cases G.apart own' own same
    exact ⟨ty, .inl ⟨own, started⟩⟩
  · exact ⟨same ▸ rfl, .inr ⟨old, same⟩⟩

theorem Tracks.beyond (tracks : G.Tracks st) {o o' p : Source} (own : G.own o) (found : st.1.lookup? o.id = some o')
    (old : p.id < G.first.source) : o.id ≠ p.id ∧ o'.id ≠ p.id := by
  have started := (tracks.sources (Renaming.lookupInside found)).2.1
  have newer := G.newer own
  have given := G.given own
  have later : G.issued.source ≤ G.base.source := G.later.2.2
  omega

def Tracks.correspondence (tracks : G.Tracks st) : Correspondence G.issued.param where
  rel := G.Image st.1
  sources := G.SourceImage st.1
  shape {e e'} image := by
    obtain ⟨covers, ⟨touches, known⟩ | ⟨untouched, rfl⟩⟩ := image
    · exact tracks.shape (Renaming.lookupInside known)
    · cases other : e'.asSource? with
      | some o =>
        cases e' with
        | reference i o =>
          rcases covers.reference with own | old
          · exact absurd ⟨i, o, selfNode _, own⟩ untouched
          · exact .inl ⟨i, i, o, o, rfl, rfl, .inr ⟨old, rfl⟩⟩
        | _ => cases other
      | none =>
        exact .inr ⟨rfl, rebuiltSelf fun c inside =>
          ⟨covers.part inside, .inr ⟨fun touches => untouched (touchesPart touches inside), rfl⟩⟩⟩
  apart {a a' b b'} first second := by
    obtain ⟨covers, ⟨_, known⟩ | ⟨untouched, rfl⟩⟩ := first <;>
      obtain ⟨covers', ⟨_, known'⟩ | ⟨untouched', rfl⟩⟩ := second
    · constructor
      · rintro rfl
        exact Option.some.inj (known.symm.trans known')
      · rintro rfl
        exact tracks.apart (Renaming.lookupInside known) (Renaming.lookupInside known')
    · constructor
      · rintro rfl
        exact absurd (tracks.keys (Renaming.lookupInside known)).2 untouched'
      · intro same
        exact absurd same (tracks.renewed covers' (Renaming.lookupInside known))
    · constructor
      · rintro rfl
        exact absurd (tracks.keys (Renaming.lookupInside known')).2 untouched
      · intro same
        exact absurd same.symm (tracks.renewed covers (Renaming.lookupInside known'))
    · exact Iff.rfl
  sourcesApart {o o' p p'} image image' := by
    rcases image with ⟨own, found⟩ | ⟨old, rfl⟩ <;> rcases image' with ⟨own', found'⟩ | ⟨old', rfl⟩
    · constructor
      · intro same
        rw [same] at found
        rw [Option.some.inj (found.symm.trans found')]
      · exact tracks.sourcesApart (Renaming.lookupInside found) (Renaming.lookupInside found')
    · obtain ⟨apart, apart'⟩ := tracks.beyond own found old'
      exact ⟨fun same => absurd same apart, fun same => absurd same apart'⟩
    · obtain ⟨apart, apart'⟩ := tracks.beyond own' found' old
      exact ⟨fun same => absurd same.symm apart, fun same => absurd same.symm apart'⟩
    · exact Iff.rfl
  typed image := (tracks.image image).1
  params image := image.1.here.2

end Ground

end SymbolicQuery
