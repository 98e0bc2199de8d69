import Mathlib.Data.List.FinRange
import Mathlib.Data.List.Sort
import Mathlib.Data.Fintype.Card
import Mathlib.Order.Compare
import SymbolicQuery.Proofs.Drifting

/-! Sorts that learn of their items by comparing two of them at a time. Where two items do not compare, the others leave
both orders of the two open; so a sort that arranges every order stably compares such a pair, wherever it stands, or
stops. -/
namespace SymbolicQuery.Sorter

variable {n : Nat} {α : Type} {cmp cmp' : Fin n → Fin n → Ordering} {i j k : Fin n}

section Result

variable {ι ε : Type}

def result (cmp : ι → ι → Ordering) : Sorter ι α → Option α
  | done a => some a
  | stopped => none
  | compares x y next => (next (cmp x y == .lt)).result cmp

def pairs (cmp : ι → ι → Ordering) : Sorter ι α → List (ι × ι)
  | done _ => []
  | stopped => []
  | compares x y next => (x, y) :: (next (cmp x y == .lt)).pairs cmp

theorem resultAgrees {t : Sorter ι α} {cmp cmp' : ι → ι → Ordering}
    (same : ∀ pair ∈ t.pairs cmp, cmp pair.1 pair.2 = cmp' pair.1 pair.2) : t.result cmp = t.result cmp' := by
  induction t with
  | done a => rfl
  | stopped => rfl
  | compares x y next ih =>
    obtain ⟨first, rest⟩ := List.forall_mem_cons.mp same
    have first : cmp x y = cmp' x y := first
    rw [result, result, ← first]
    exact ih (cmp x y == .lt) rest

theorem Gives.met {t : Sorter ι α} {cmp : ι → ι → Ordering} {P : α → Prop}
    (gives : t.Gives (fun x y => cmp x y == .lt) P) :
    (∃ a, t.result cmp = some a ∧ P a) ∧ ∀ pair ∈ t.pairs cmp, Fair (fun x y => cmp x y == .lt) pair.1 pair.2 := by
  induction t with
  | done a => exact ⟨⟨a, rfl, gives⟩, fun pair none => by cases none⟩
  | stopped => exact gives.elim
  | compares x y next ih =>
    obtain ⟨found, fair⟩ := ih _ gives.2
    exact ⟨found, List.forall_mem_cons.mpr ⟨gives.1, fair⟩⟩

theorem Steady.ends {t : Sorter ι α} {cmp : ι → ι → Ordering} (steady : t.Steady) : t.result cmp ≠ none := by
  induction t with
  | done a => exact Option.some_ne_none a
  | stopped => exact steady.elim
  | compares x y next ih => exact ih _ (steady _)

def guess (cmp : ι → ι → Option Ordering) (x y : ι) : Ordering := (cmp x y).getD .eq

def failure (order : ι → ι → Except ε Ordering) : List (ι × ι) → Option ε
  | [] => none
  | (x, y) :: rest =>
    match order x y with
    | .ok _ => failure order rest
    | .error e => some e

theorem failureFound {order : ι → ι → Except ε Ordering} {asked : List (ι × ι)} {e : ε}
    (found : failure order asked = some e) : ∃ pair ∈ asked, order pair.1 pair.2 = .error e := by
  induction asked with
  | nil => cases found
  | cons pair rest ih =>
    rw [failure] at found
    split at found
    · obtain ⟨later, inside, failed⟩ := ih found
      exact ⟨later, List.mem_cons_of_mem pair inside, failed⟩
    · rename_i failed
      exact ⟨pair, List.mem_cons_self, failed.trans (congrArg Except.error (Option.some.inj found))⟩

theorem failureNone {order : ι → ι → Except ε Ordering} {asked : List (ι × ι)} :
    failure order asked = none ↔ ¬ ∃ pair ∈ asked, (order pair.1 pair.2).toOption = none := by
  induction asked with
  | nil => simp [failure]
  | cons pair rest ih =>
    rw [failure]
    cases known : order pair.1 pair.2 with
    | ok o => simpa [known, Except.toOption] using ih
    | error e => simp [known, Except.toOption]

theorem runResult {t : Sorter ι α} {order : ι → ι → Except ε Ordering} {stop : ε} {failed : Option ε} :
    let cmp := guess fun x y => (order x y).toOption
    t.run order stop failed = (t.result cmp).elim (.error stop)
      fun a => (failed.or (failure order (t.pairs cmp))).elim (.ok a) .error := by
  intro cmp
  induction t generalizing failed with
  | done a => cases failed <;> rfl
  | stopped => cases failed <;> rfl
  | compares x y next ih =>
    have answered : cmp x y = ((order x y).toOption).getD .eq := rfl
    cases known : order x y with
    | ok o =>
      rw [known] at answered
      have answered : cmp x y = o := answered
      rw [run, known, result, pairs, failure, known, answered]
      exact ih (o == .lt)
    | error e =>
      rw [known] at answered
      have answered : cmp x y = .eq := answered
      rw [run, known, result, pairs, failure, known, answered]
      refine (ih false).trans ?_
      cases failed <;> rfl

end Result

def Precedes (cmp : Fin n → Fin n → Ordering) (i j : Fin n) : Prop := cmp i j = .lt ∨ cmp i j = .eq ∧ i < j

/-- Whether a sort arranges stably whatever order it is given. It compares an item with itself only if another one is
equal to it. -/
structure Stable (t : Sorter (Fin n) (List (Fin n))) : Prop where
  arranges : ∀ cmp, Std.TransCmp cmp → ∃ places, t.result cmp = some places ∧
    Arranged (Precedes cmp) (List.finRange n) places
  apart : ∀ cmp, Std.TransCmp cmp → ∀ pair ∈ t.pairs cmp, pair.1 ≠ pair.2 ∨ ∃ k, k ≠ pair.1 ∧ cmp pair.1 k = .eq

section Order

variable (trans : Std.TransCmp cmp)

include trans

theorem precedesRanks : Ranks (fun i j => cmp i j == .lt) (Precedes cmp) where
  irrefl i precedes := by
    rcases precedes with less | ⟨-, before⟩
    · cases less.symm.trans Std.ReflCmp.compare_self
    · exact Nat.lt_irrefl _ before
  trans i j k first second := by
    rcases first with less | ⟨equal, before⟩ <;> rcases second with less' | ⟨equal', before'⟩
    · exact .inl (Std.TransCmp.lt_trans less less')
    · exact .inl (Std.TransCmp.lt_of_lt_of_eq less equal')
    · exact .inl (Std.TransCmp.lt_of_eq_of_lt equal less')
    · exact .inr ⟨Std.TransCmp.eq_trans equal equal', Nat.lt_trans before before'⟩
  ofLess i j less := .inl (beq_iff_eq.mp less)
  between i j k less := by
    have less : cmp i k = .lt := beq_iff_eq.mp less
    by_cases first : cmp i j = .lt
    · exact .inl (beq_iff_eq.mpr first)
    · refine .inr (beq_iff_eq.mpr (Std.TransCmp.lt_of_isLE_of_lt ?_ less))
      have turned : cmp j i = (cmp i j).swap := Std.OrientedCmp.eq_swap
      rw [turned]
      revert first
      cases cmp i j <;> decide

theorem placesCalm : Calm (fun i j => cmp i j == .lt) (Precedes cmp) (List.finRange n) := by
  refine (List.pairwise_lt_finRange n).imp fun {i j} before notLess => ?_
  have notLess : cmp j i ≠ .lt := fun less => absurd (beq_iff_eq.mpr less) (Bool.eq_false_iff.mp notLess)
  have turned : cmp i j = (cmp j i).swap := Std.OrientedCmp.eq_swap
  cases known : cmp j i with
  | lt => exact absurd known notLess
  | eq => exact .inr ⟨by rw [turned, known]; rfl, before⟩
  | gt => exact .inl (by rw [turned, known]; rfl)

end Order

theorem sortStable : (sort (List.finRange n)).Stable where
  arranges cmp trans := (sortGives (precedesRanks trans) (placesCalm trans)).met.1
  apart cmp trans pair asked := by
    rcases (sortGives (precedesRanks trans) (placesCalm trans)).met.2 pair asked with apart | ⟨k, apart, first, second⟩
    · exact .inl apart
    · refine .inr ⟨k, apart, ?_⟩
      have turned : cmp k pair.1 = (cmp pair.1 k).swap := Std.OrientedCmp.eq_swap
      revert first second
      dsimp only
      rw [turned]
      cases cmp pair.1 k <;> decide

variable {t : Sorter (Fin n) (List (Fin n))}

/-- A comparison of some of the pairs. What it leaves out, it leaves out on both sides, and what lies between two items
tells how they compare. -/
structure Partial (cmp : Fin n → Fin n → Option Ordering) : Prop where
  swap : ∀ i j, cmp j i = (cmp i j).map Ordering.swap
  through : ∀ i j k o p, cmp i j = some o → cmp j k = some p → o.isLE = true → p.isLE = true →
    cmp i k = some (o.then p)

theorem ranksOf {le : Fin n → Fin n → Prop} (refl : ∀ i, le i i) (trans : ∀ i j k, le i j → le j k → le i k) :
    ∃ rank : Fin n → Nat, (∀ i j, le i j → rank i ≤ rank j) ∧ ∀ i j, le i j → ¬ le j i → rank i < rank j := by
  -- A preorder of finitely many items is counted out by what lies below each of them.
  classical
  have below {i j : Fin n} (first : le i j) : Finset.univ.filter (le · i) ⊆ Finset.univ.filter (le · j) := by
    intro k inside
    rw [Finset.mem_filter] at inside ⊢
    exact ⟨inside.1, trans k i j inside.2 first⟩
  refine ⟨fun i => (Finset.univ.filter (le · i)).card, fun i j first => Finset.card_le_card (below first),
    fun i j first other => Finset.card_lt_card ((Finset.ssubset_iff_of_subset (below first)).mpr ⟨j, ?_, ?_⟩)⟩
  · rw [Finset.mem_filter]
    exact ⟨Finset.mem_univ j, refl j⟩
  · rw [Finset.mem_filter]
    exact fun inside => other inside.2

theorem Arranged.keeps {out places : List (Fin n)} (arranged : Arranged (Precedes cmp) (List.finRange n) out)
    (trans : Std.TransCmp cmp) (ordered : places.Pairwise (Precedes cmp)) : places.Sublist out := by
  have ranks := precedesRanks trans
  have antisymm : Std.Antisymm (Precedes cmp) := ⟨fun i j there back => absurd back (ranks.asymm there)⟩
  refine List.sublist_of_subperm_of_pairwise (List.subperm_of_subset (ordered.imp ?_) fun i _ => ?_) ordered
    arranged.ordered
  · rintro i j precedes rfl
    exact ranks.irrefl i precedes
  · exact arranged.perm.mem_iff.mpr (List.mem_finRange i)

theorem rankOrders {rank : Fin n → Nat} {out : List (Fin n)} (stable : t.Stable)
    (left : t.result (compareOn rank) = some out) :
    (∀ k, k ∈ out) ∧ out.Pairwise fun k l => rank k ≤ rank l := by
  obtain ⟨out', left', arranged⟩ := stable.arranges (compareOn rank) inferInstance
  obtain rfl : out = out' := Option.some.inj (left.symm.trans left')
  exact ⟨fun k => arranged.perm.mem_iff.mpr (List.mem_finRange k), arranged.ordered.imp fun precedes =>
    precedes.elim (fun less => Nat.le_of_lt (Nat.compare_eq_lt.mp less)) fun equal =>
      Nat.le_of_eq (Nat.compare_eq_eq.mp equal.1)⟩

theorem eitherWay {R : Fin n → Fin n → Prop} {out : List (Fin n)} (ordered : out.Pairwise R) (inside : i ∈ out)
    (inside' : j ∈ out) (apart : i ≠ j) : R i j ∨ R j i := by
  have symm : Std.Symm fun k l => R k l ∨ R l k := ⟨fun _ _ => Or.symm⟩
  exact (ordered.imp (S := fun k l => R k l ∨ R l k) Or.inl).forall inside inside' apart

section Open

def Upto (cmp : Fin n → Fin n → Option Ordering) (k l : Fin n) : Prop := k = l ∨ ∃ o, cmp k l = some o ∧ o.isLE = true

/-- The order goes on with the first item at or before the second. -/
def UptoWith (cmp : Fin n → Fin n → Option Ordering) (i j k l : Fin n) : Prop :=
  Upto cmp k l ∨ Upto cmp k i ∧ Upto cmp j l

variable {cmp : Fin n → Fin n → Option Ordering} {i j k l m : Fin n} (sound : Partial cmp)

include sound

theorem selfEqual {o : Ordering} (known : cmp i i = some o) : o = .eq := by
  have turned := sound.swap i i
  rw [known] at turned
  cases o with
  | eq => rfl
  | lt => cases turned
  | gt => cases turned

theorem uptoTrans (first : Upto cmp k l) (second : Upto cmp l m) : Upto cmp k m := by
  rcases first with rfl | ⟨o, first, small⟩
  · exact second
  rcases second with rfl | ⟨p, second, small'⟩
  · exact .inr ⟨o, first, small⟩
  refine .inr ⟨_, sound.through k l m o p first second small small', ?_⟩
  cases o with
  | lt => rfl
  | eq => exact small'
  | gt => cases small

theorem uptoWithTrans (first : UptoWith cmp i j k l) (second : UptoWith cmp i j l m) : UptoWith cmp i j k m := by
  rcases first with first | ⟨first, first'⟩ <;> rcases second with second | ⟨second, second'⟩
  · exact .inl (uptoTrans sound first second)
  · exact .inr ⟨uptoTrans sound first second, second'⟩
  · exact .inr ⟨first, uptoTrans sound first' second⟩
  · exact .inr ⟨first, second'⟩

theorem openNotUpto (apart : i ≠ j) (lacks : cmp i j = none) : ¬ Upto cmp j i := by
  rintro (same | ⟨o, known, -⟩)
  · exact apart same.symm
  · rw [sound.swap, lacks] at known
    cases known

theorem lessNotUpto (known : cmp k l = some .lt) : ¬ Upto cmp l k := by
  rintro (rfl | ⟨o, back, small⟩)
  · cases selfEqual sound known
  · rw [sound.swap, known] at back
    cases back
    cases small

/-- A comparison that leaves a pair out goes on in an order in which the pair stands either way. -/
theorem extended (apart : i ≠ j) (lacks : cmp i j = none) :
    ∃ rank : Fin n → Nat, (∀ k l o, cmp k l = some o → Ord.compare (rank k) (rank l) = o) ∧ rank i < rank j := by
  have notBack := openNotUpto sound apart lacks
  have refl : ∀ k, UptoWith cmp i j k k := fun k => .inl (.inl rfl)
  obtain ⟨rank, mono, strict⟩ := ranksOf refl fun k l m => uptoWithTrans sound
  have less {k l : Fin n} (known : cmp k l = some .lt) : rank k < rank l := by
    have up : Upto cmp k l := .inr ⟨_, known, rfl⟩
    refine strict k l (.inl up) ?_
    rintro (back | ⟨first, second⟩)
    · exact lessNotUpto sound known back
    · exact notBack (uptoTrans sound second (uptoTrans sound up first))
  refine ⟨rank, fun k l o known => ?_, strict i j (.inr ⟨.inl rfl, .inl rfl⟩) ?_⟩
  · cases o with
    | lt => exact Nat.compare_eq_lt.mpr (less known)
    | eq =>
      have back : cmp l k = some .eq := by
        rw [sound.swap, known]
        rfl
      exact Nat.compare_eq_eq.mpr (Nat.le_antisymm (mono k l (.inl (.inr ⟨_, known, rfl⟩)))
        (mono l k (.inl (.inr ⟨_, back, rfl⟩))))
    | gt =>
      refine Nat.compare_eq_gt.mpr (less ?_)
      rw [sound.swap, known]
      rfl
  · rintro (back | ⟨back, -⟩) <;> exact notBack back

theorem guessTrans (full : ∀ i j, i ≠ j → cmp i j ≠ none) : Std.TransCmp (guess cmp) where
  eq_swap := by
    intro i j
    unfold guess
    rw [sound.swap j i]
    cases cmp j i <;> rfl
  isLE_trans := by
    intro i j k first second
    by_cases near : i = j
    · exact near ▸ second
    by_cases near' : j = k
    · exact near' ▸ first
    obtain ⟨o, known⟩ := Option.ne_none_iff_exists'.mp (full i j near)
    obtain ⟨p, known'⟩ := Option.ne_none_iff_exists'.mp (full j k near')
    unfold guess at *
    rw [known] at first
    rw [known'] at second
    rw [sound.through i j k o p known known' first second]
    cases o with
    | lt => rfl
    | eq => exact second
    | gt => cases first

theorem asksKnown (stable : t.Stable) (full : ∀ i j, i ≠ j → cmp i j ≠ none) {pair : Fin n × Fin n}
    (asked : pair ∈ t.pairs (guess cmp)) : cmp pair.1 pair.2 ≠ none := by
  intro lacks
  rcases stable.apart _ (guessTrans sound full) pair asked with apart | ⟨k, apart, equal⟩
  · exact full _ _ apart lacks
  · -- an item that is equal to another one is also equal to itself
    obtain ⟨o, known⟩ := Option.ne_none_iff_exists'.mp (full pair.1 k apart.symm)
    obtain rfl : o = .eq := by
      rw [guess, known] at equal
      exact equal
    have back : cmp k pair.1 = some .eq := by
      rw [sound.swap, known]
      rfl
    have self := sound.through pair.1 k pair.1 .eq .eq known back rfl rfl
    by_cases same : pair.1 = pair.2
    · rw [← same, self] at lacks
      cases lacks
    · exact full _ _ same lacks

omit sound in
theorem asksMore {rank : Fin n → Nat} (all : ∀ pair ∈ t.pairs (guess cmp), cmp pair.1 pair.2 ≠ none)
    (extends' : ∀ k l o, cmp k l = some o → Ord.compare (rank k) (rank l) = o) :
    t.result (guess cmp) = t.result (compareOn rank) := by
  refine resultAgrees fun pair asked => ?_
  obtain ⟨o, known⟩ := Option.ne_none_iff_exists'.mp (all pair asked)
  exact (congrArg (Option.getD · .eq) known).trans (extends' _ _ o known).symm

theorem meets (stable : t.Stable) :
    (∃ pair ∈ t.pairs (guess cmp), cmp pair.1 pair.2 = none) ↔ ∃ i j, i ≠ j ∧ cmp i j = none := by
  refine ⟨fun ⟨pair, asked, lacks⟩ => ?_, fun ⟨i, j, apart, lacks⟩ => ?_⟩
  · by_contra calm
    exact asksKnown sound stable (fun i j apart lacks => calm ⟨i, j, apart, lacks⟩) asked lacks
  · by_contra unmet
    have all : ∀ pair ∈ t.pairs (guess cmp), cmp pair.1 pair.2 ≠ none := fun pair asked lacks =>
      unmet ⟨pair, asked, lacks⟩
    -- The two orders go different ways on the pair, but the sort gives one result for both of them.
    obtain ⟨rank, extends', first⟩ := extended sound apart lacks
    obtain ⟨rank', extends'', second⟩ := extended sound apart.symm (by rw [sound.swap, lacks]; rfl)
    obtain ⟨out, left, -⟩ := stable.arranges (compareOn rank) inferInstance
    obtain ⟨inside, sorted⟩ := rankOrders stable left
    obtain ⟨-, sorted'⟩ := rankOrders stable ((asksMore all extends'').symm.trans ((asksMore all extends').trans left))
    rcases eitherWay (sorted.and sorted') (inside i) (inside j) apart with ⟨-, other⟩ | ⟨other, -⟩
    · exact Nat.not_lt_of_le other second
    · exact Nat.not_lt_of_le other first

end Open

end SymbolicQuery.Sorter
