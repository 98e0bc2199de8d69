import Mathlib.Data.List.Pairwise
import Mathlib.Data.List.Perm.Basic
import SymbolicQuery.Sorter

/-! Sorts of short lists, and merges. The answers to which of two items is less are told from the order that items are
arranged in, which also tells equal items apart: there the one that stood first precedes. So a sort is followed on lists
of which each item precedes those behind it, unless one of these is less. -/
namespace SymbolicQuery.Sorter

variable {ι α β : Type}

structure Ranks (less : ι → ι → Bool) (precedes : ι → ι → Prop) : Prop where
  irrefl : ∀ x, ¬ precedes x x
  trans : ∀ x y z, precedes x y → precedes y z → precedes x z
  ofLess : ∀ x y, less x y = true → precedes x y
  between : ∀ x y z, less x z = true → less x y = true ∨ less y z = true

/-- Questions that have an answer: about two items, or about one that is equal to some other item. -/
def Fair (less : ι → ι → Bool) (x y : ι) : Prop := x ≠ y ∨ ∃ z, z ≠ x ∧ less x z = false ∧ less z x = false

/-- Whether a sort asks fair questions alone, comes to its end, and leaves what is expected. -/
def Gives (less : ι → ι → Bool) (P : α → Prop) : Sorter ι α → Prop
  | done a => P a
  | stopped => False
  | compares x y next => Fair less x y ∧ (next (less x y)).Gives less P

section Gives

variable {less : ι → ι → Bool} {P : α → Prop} {Q : β → Prop} {t : Sorter ι α} {f : α → Sorter ι β}

theorem Gives.imp (gives : t.Gives less P) {P' : α → Prop} (weaker : ∀ a, P a → P' a) : t.Gives less P' := by
  induction t with
  | done a => exact weaker a gives
  | stopped => exact gives
  | compares x y next ih => exact ⟨gives.1, ih _ gives.2⟩

theorem givesBind (first : t.Gives less P) (next : ∀ a, P a → (f a).Gives less Q) : (t >>= f).Gives less Q := by
  induction t with
  | done a => exact next a first
  | stopped => exact first
  | compares x y more ih => exact ⟨first.1, ih _ first.2⟩

theorem givesCompare {x y : ι} {f : Bool → Sorter ι β} (fair : Fair less x y) (next : (f (less x y)).Gives less Q) :
    (Sorter.less x y >>= f).Gives less Q := ⟨fair, next⟩

theorem Gives.ends (gives : t.Gives less P) : ∃ a, P a := by
  induction t with
  | done a => exact ⟨a, gives⟩
  | stopped => exact gives.elim
  | compares x y next ih => exact ih _ gives.2

end Gives

def Steady : Sorter ι α → Prop
  | done _ => True
  | stopped => False
  | compares _ _ next => ∀ b, (next b).Steady

theorem steadyBind {t : Sorter ι α} {f : α → Sorter ι β} (first : t.Steady) (next : ∀ a, (f a).Steady) :
    (t >>= f).Steady := by
  induction t with
  | done a => exact next a
  | stopped => exact first
  | compares x y more ih => exact fun b => ih b (first b)

theorem insertSteady {x : ι} {ys : List ι} : (insertLast x ys).Steady := by
  induction ys with
  | nil => trivial
  | cons y rest ih =>
    unfold insertLast
    refine steadyBind (fun _ => trivial) fun less => ?_
    cases less with
    | true => exact steadyBind ih fun _ => trivial
    | false => trivial

theorem insertAllSteady {sorted items : List ι} : (insertAll sorted items).Steady := by
  refine steadyBind ?_ fun _ => trivial
  induction items generalizing sorted with
  | nil => trivial
  | cons x rest ih => exact steadyBind insertSteady fun _ => ih

section Arranged

variable {less : ι → ι → Bool} {precedes : ι → ι → Prop} {x y z : ι} {items left right out : List ι}

def Before (less : ι → ι → Bool) (precedes : ι → ι → Prop) (x y : ι) : Prop := less y x = false → precedes x y

abbrev Calm (less : ι → ι → Bool) (precedes : ι → ι → Prop) (items : List ι) : Prop :=
  items.Pairwise (Before less precedes)

structure Arranged (precedes : ι → ι → Prop) (items out : List ι) : Prop where
  perm : out.Perm items
  ordered : out.Pairwise precedes

theorem before (known : precedes x y) : Before less precedes x y := fun _ => known

theorem orderedCalm (ordered : out.Pairwise precedes) : Calm less precedes out := ordered.imp before

theorem Arranged.across (arranged : Arranged precedes items out) {others others' : List ι} (perm : others'.Perm others)
    (across : ∀ x ∈ items, ∀ y ∈ others, Before less precedes x y) :
    ∀ x ∈ out, ∀ y ∈ others', Before less precedes x y := fun x inside y inside' =>
  across x (arranged.perm.mem_iff.mp inside) y (perm.mem_iff.mp inside')

variable (ranks : Ranks less precedes)

include ranks

theorem Ranks.notSelf : less x x = false := by
  cases known : less x x with
  | false => rfl
  | true => exact absurd (ranks.ofLess x x known) (ranks.irrefl x)

theorem Ranks.asymm (known : precedes x y) : ¬ precedes y x := fun back =>
  ranks.irrefl x (ranks.trans x y x known back)

theorem Ranks.notLess (known : precedes x y) : less y x = false := by
  cases back : less y x with
  | false => rfl
  | true => exact absurd (ranks.ofLess y x back) (ranks.asymm known)

theorem Ranks.apart (stands : Before less precedes x y) : x ≠ y := by
  rintro rfl
  exact ranks.irrefl x (stands ranks.notSelf)

theorem Ranks.fair (stands : Before less precedes x y) : Fair less x y ∧ Fair less y x :=
  ⟨.inl (ranks.apart stands), .inl (ranks.apart stands).symm⟩

theorem Ranks.nodup (calm : Calm less precedes items) : items.Nodup := calm.imp ranks.apart

end Arranged

section Short

variable {less : ι → ι → Bool} {precedes : ι → ι → Prop} (ranks : Ranks less precedes)

include ranks

theorem insertGives {x : ι} {ys : List ι} (behind : ∀ y ∈ ys, Before less precedes y x)
    (ordered : ys.Pairwise fun a b => precedes b a) :
    (insertLast x ys).Gives less fun zs => zs.Perm (x :: ys) ∧ zs.Pairwise fun a b => precedes b a := by
  induction ys with
  | nil => exact ⟨List.Perm.refl _, List.pairwise_singleton _ x⟩
  | cons y rest ih =>
    obtain ⟨here, later⟩ := List.forall_mem_cons.mp behind
    obtain ⟨below, ordered⟩ := List.pairwise_cons.mp ordered
    refine givesCompare (ranks.fair here).2 ?_
    cases known : less x y with
    | true =>
      refine givesBind (ih later ordered) fun zs ⟨perm, ordered⟩ => ⟨(perm.cons y).trans (.swap x y rest), ?_⟩
      refine List.pairwise_cons.mpr ⟨fun z inside => ?_, ordered⟩
      rcases List.mem_cons.mp (perm.mem_iff.mp inside) with rfl | old
      · exact ranks.ofLess z y known
      · exact below z old
    | false =>
      refine ⟨List.Perm.refl _, List.pairwise_cons.mpr ⟨fun z inside => ?_, List.pairwise_cons.mpr ⟨below, ordered⟩⟩⟩
      rcases List.mem_cons.mp inside with rfl | old
      · exact here known
      · exact ranks.trans z y x (below z old) (here known)

theorem insertAllGives {sorted items : List ι} (calm : Calm less precedes items)
    (across : ∀ y ∈ sorted, ∀ x ∈ items, Before less precedes y x) (ordered : sorted.Pairwise fun a b => precedes b a) :
    (insertAll sorted items).Gives less (Arranged precedes (sorted ++ items)) := by
  have folds : (items.foldlM (fun sorted x => insertLast x sorted) sorted).Gives less fun zs =>
      zs.Perm (sorted ++ items) ∧ zs.Pairwise fun a b => precedes b a := by
    induction items generalizing sorted with
    | nil => exact ⟨by rw [List.append_nil], ordered⟩
    | cons x rest ih =>
      obtain ⟨ahead, calm⟩ := List.pairwise_cons.mp calm
      rw [List.foldlM_cons]
      refine givesBind (insertGives ranks (fun y inside => across y inside x List.mem_cons_self) ordered)
        fun zs ⟨perm, ordered⟩ => (ih calm (fun y inside z later => ?_) ordered).imp fun out given =>
          ⟨given.1.trans ((perm.append_right rest).trans List.perm_middle.symm), given.2⟩
      rcases List.mem_cons.mp (perm.mem_iff.mp inside) with rfl | old
      · exact ahead z later
      · exact across y old z (List.mem_cons_of_mem x later)
  exact givesBind folds fun zs ⟨perm, ordered⟩ =>
    ⟨(List.reverse_perm zs).trans perm, List.pairwise_reverse.mpr ordered⟩

theorem insertedGives {items : List ι} (calm : Calm less precedes items) :
    (insertAll [] items).Gives less (Arranged precedes items) :=
  insertAllGives ranks calm (fun y none => by cases none) .nil

theorem pairOrdered {x y : ι} (stands : Before less precedes x y) :
    ∃ a b, (if less y x then (y, x) else (x, y)) = (a, b) ∧ precedes a b ∧ [a, b].Perm [x, y] := by
  cases known : less y x with
  | true => exact ⟨y, x, rfl, ranks.ofLess y x known, .swap x y []⟩
  | false => exact ⟨x, y, rfl, stands known, .refl _⟩

theorem middleGives {least left right most : ι} {items : List ι} (stands : Before less precedes left right)
    (below : precedes least left) (below' : precedes least right) (above : precedes left most)
    (above' : precedes right most) (perm : [most, right, left, least].Perm items) :
    (do return if ← Sorter.less right left then [most, left, right, least] else [most, right, left, least] :
        Sorter ι (List ι)).Gives less fun out => out.Perm items ∧ out.Pairwise fun a b => precedes b a := by
  have ends := ranks.trans least left most below above
  refine givesCompare (ranks.fair stands).2 ?_
  cases known : less right left with
  | true => exact ⟨((List.Perm.swap right left _).cons most).trans perm, by simp [below, below', above, above', ends, ranks.ofLess right left known]⟩
  | false => exact ⟨perm, by simp [below, below', above, above', ends, stands known]⟩

theorem crossGives {a b c d : ι} (first : precedes a b) (second : precedes c d)
    (across : ∀ x ∈ [a, b], ∀ y ∈ [c, d], Before less precedes x y) :
    (crossPairs a b c d).Gives less fun out => out.Perm [a, b, c, d] ∧ out.Pairwise fun a b => precedes b a := by
  classical
  have ac := across a (by simp) c (by simp)
  have ad := across a (by simp) d (by simp)
  have bc := across b (by simp) c (by simp)
  have bd := across b (by simp) d (by simp)
  refine givesCompare (ranks.fair ac).2 (givesCompare (ranks.fair bd).2 ?_)
  -- the least of all is the less of the first items of the pairs, and the greatest one of the last
  cases low : less c a with
  | true =>
    have ca := ranks.ofLess c a low
    cases high : less d b with
    | true =>
      exact middleGives ranks ad ca second first (ranks.ofLess d b high) (by rw [List.perm_iff_count]; grind)
    | false =>
      exact middleGives ranks (before first) ca (ranks.trans c a b ca first) (ranks.trans a b d first (bd high)) (bd high)
        (by rw [List.perm_iff_count]; grind)
  | false =>
    have ac := ac low
    cases high : less d b with
    | true =>
      have db := ranks.ofLess d b high
      exact middleGives ranks (before second) ac (ranks.trans a c d ac second) (ranks.trans c d b second db) db
        (by rw [List.perm_iff_count]; grind)
    | false =>
      exact middleGives ranks bc first ac (bd high) second (by rw [List.perm_iff_count]; grind)

theorem fourGives {a b c d : ι} (calm : Calm less precedes [a, b, c, d]) :
    (sortFour a b c d).Gives less fun out => out.Perm [a, b, c, d] ∧ out.Pairwise fun a b => precedes b a := by
  obtain ⟨first, second, across⟩ := List.pairwise_append.mp (show Calm less precedes ([a, b] ++ [c, d]) from calm)
  have first := List.pairwise_pair.mp first
  have second := List.pairwise_pair.mp second
  refine givesCompare (ranks.fair first).2 (givesCompare (ranks.fair second).2 ?_)
  obtain ⟨a', b', pair, ordered, perm⟩ := pairOrdered ranks first
  obtain ⟨c', d', pair', ordered', perm'⟩ := pairOrdered ranks second
  simp only [pair, pair']
  refine (crossGives ranks ordered ordered' fun x inside y inside' => ?_).imp fun out given =>
    ⟨given.1.trans (perm.append perm'), given.2⟩
  exact across x (perm.mem_iff.mp inside) y (perm'.mem_iff.mp inside')

theorem halfGives {four : Bool} {items : List ι} (calm : Calm less precedes items) :
    (sortHalf four items).Gives less (Arranged precedes items) := by
  unfold sortHalf
  split
  · rename_i a b c d rest
    obtain ⟨first, rest, across⟩ :=
      List.pairwise_append.mp (show Calm less precedes ([a, b, c, d] ++ rest) from calm)
    refine givesBind (fourGives ranks first) fun sorted ⟨perm, ordered⟩ =>
      (insertAllGives ranks rest (fun y inside => across y (perm.mem_iff.mp inside)) ordered).imp fun out arranged =>
        ⟨arranged.perm.trans (perm.append_right _), arranged.ordered⟩
  · exact insertedGives ranks calm

end Short

section Merging

section Next

variable {S : ι → ι → Prop} (trans : ∀ x y z, S x y → S y z → S x z) {x y : ι} {xs ys m : List ι}

include trans

theorem nextAhead (below : ∀ z ∈ xs, S x z) (below' : ∀ z ∈ ys, S y z) (yx : S y x) : ∀ z ∈ x :: xs ++ ys, S y z := by
  intro z inside
  rcases List.mem_append.mp inside with inside | inside
  · rcases List.mem_cons.mp inside with rfl | inside
    · exact yx
    · exact trans y x z yx (below z inside)
  · exact below' z inside

theorem Arranged.nextRight (arranged : Arranged S (x :: xs ++ ys) m) (below : ∀ z ∈ xs, S x z)
    (below' : ∀ z ∈ ys, S y z) (yx : S y x) : Arranged S (x :: xs ++ y :: ys) (y :: m) :=
  ⟨(arranged.perm.cons y).trans List.perm_middle.symm, List.pairwise_cons.mpr
    ⟨fun z inside => nextAhead trans below below' yx z (arranged.perm.mem_iff.mp inside), arranged.ordered⟩⟩

theorem Arranged.nextLeft (arranged : Arranged S (xs ++ y :: ys) m) (below : ∀ z ∈ xs, S x z)
    (below' : ∀ z ∈ ys, S y z) (xy : S x y) : Arranged S (x :: xs ++ y :: ys) (x :: m) :=
  ⟨arranged.perm.cons x, List.pairwise_cons.mpr ⟨fun z inside => nextAhead trans below' below xy z
    ((arranged.perm.trans List.perm_append_comm).mem_iff.mp inside), arranged.ordered⟩⟩

end Next

theorem arrangedRest {S : ι → ι → Prop} {left right : List ι} (ordered : left.Pairwise S) (ordered' : right.Pairwise S)
    (ended : ∀ x left' y right', left = x :: left' → right = y :: right' → False) :
    Arranged S (left ++ right) (left ++ right) := by
  refine ⟨.refl _, ?_⟩
  cases left with
  | nil => exact ordered'
  | cons x left' =>
    cases right with
    | nil => rwa [List.append_nil]
    | cons y right' => exact (ended x left' y right' rfl rfl).elim

variable {less : ι → ι → Bool} {precedes : ι → ι → Prop} (ranks : Ranks less precedes)

include ranks

theorem mergeUpGives {merged left right : List ι} (ordered : left.Pairwise precedes) (ordered' : right.Pairwise precedes)
    (across : ∀ x ∈ left, ∀ y ∈ right, Before less precedes x y) :
    (mergeUp merged left right).Gives less fun out =>
      ∃ m, out = merged.reverse ++ m ∧ Arranged precedes (left ++ right) m := by
  induction merged, left, right using mergeUp.induct with
  | case1 merged x left y right ih ih' =>
    obtain ⟨below, rest⟩ := List.pairwise_cons.mp ordered
    obtain ⟨below', rest'⟩ := List.pairwise_cons.mp ordered'
    have here := across x List.mem_cons_self y List.mem_cons_self
    rw [mergeUp]
    refine givesCompare (ranks.fair here).2 ?_
    cases known : less y x with
    | true =>
      refine (ih ordered rest' fun a inside b inside' => across a inside b (List.mem_cons_of_mem y inside')).imp ?_
      rintro out ⟨m, rfl, arranged⟩
      exact ⟨y :: m, by simp, arranged.nextRight ranks.trans below below' (ranks.ofLess y x known)⟩
    | false =>
      refine (ih' rest ordered' fun a inside b inside' => across a (List.mem_cons_of_mem x inside) b inside').imp ?_
      rintro out ⟨m, rfl, arranged⟩
      exact ⟨x :: m, by simp, arranged.nextLeft ranks.trans below below' (here known)⟩
  | case2 merged left right ended =>
    rw [mergeUp.eq_2 merged left right ended]
    exact ⟨left ++ right, List.append_assoc _ _ _, arrangedRest ordered ordered' ended⟩

theorem mergeDownGives {merged left right : List ι} (ordered : left.Pairwise fun a b => precedes b a)
    (ordered' : right.Pairwise fun a b => precedes b a) (across : ∀ x ∈ left, ∀ y ∈ right, Before less precedes x y) :
    (mergeDown merged left right).Gives less fun out =>
      ∃ m, out = m.reverse ++ merged ∧ Arranged (fun a b => precedes b a) (left ++ right) m := by
  have trans : ∀ x y z, precedes y x → precedes z y → precedes z x := fun x y z yx zy => ranks.trans z y x zy yx
  induction merged, left, right using mergeDown.induct with
  | case1 merged x left y right ih ih' =>
    obtain ⟨below, rest⟩ := List.pairwise_cons.mp ordered
    obtain ⟨below', rest'⟩ := List.pairwise_cons.mp ordered'
    have here := across x List.mem_cons_self y List.mem_cons_self
    rw [mergeDown]
    refine givesCompare (ranks.fair here).2 ?_
    cases known : less y x with
    | true =>
      refine (ih rest ordered' fun a inside b inside' => across a (List.mem_cons_of_mem x inside) b inside').imp ?_
      rintro out ⟨m, rfl, arranged⟩
      exact ⟨x :: m, by simp, arranged.nextLeft trans below below' (ranks.ofLess y x known)⟩
    | false =>
      refine (ih' ordered rest' fun a inside b inside' => across a inside b (List.mem_cons_of_mem y inside')).imp ?_
      rintro out ⟨m, rfl, arranged⟩
      exact ⟨y :: m, by simp, arranged.nextRight trans below below' (here known)⟩
  | case2 merged left right ended =>
    rw [mergeDown.eq_2 merged left right ended]
    refine ⟨left ++ right, ?_, arrangedRest ordered ordered' ended⟩
    -- one of the two is empty, so they may stand either way round
    cases left with
    | nil => simp
    | cons x left' =>
      cases right with
      | nil => simp
      | cons y right' => exact (ended x left' y right' rfl rfl).elim

theorem mergeGives {left right : List ι} (ordered : left.Pairwise precedes) (ordered' : right.Pairwise precedes)
    (across : ∀ x ∈ left, ∀ y ∈ right, Before less precedes x y) :
    (merge left right).Gives less (Arranged precedes (left ++ right)) := by
  unfold merge
  split
  · refine (mergeUpGives ranks ordered ordered' across).imp ?_
    rintro out ⟨m, rfl, arranged⟩
    exact arranged
  · refine (mergeDownGives ranks (List.pairwise_reverse.mpr ordered) (List.pairwise_reverse.mpr ordered')
      fun x inside y inside' => across x (List.mem_reverse.mp inside) y (List.mem_reverse.mp inside')).imp ?_
    rintro out ⟨m, rfl, arranged⟩
    rw [List.append_nil]
    exact ⟨(List.reverse_perm m).trans (arranged.perm.trans ((List.reverse_perm left).append (List.reverse_perm right))),
      List.pairwise_reverse.mpr arranged.ordered⟩

end Merging

section Meeting

/-- What has been taken so far from the start of two lists, where all their items together stand in order. -/
structure Taking (S : ι → ι → Prop) (left₀ right₀ all taken left right : List ι) : Prop where
  behind : ∃ rest, all = taken.reverse ++ rest ∧ rest.Perm (left ++ right)
  left : left <:+ left₀
  right : right <:+ right₀

section Taking

variable {S : ι → ι → Prop} {left₀ right₀ all taken left right : List ι}

theorem leastFirst {y : ι} {rest others : List ι} (asymm : ∀ x y, S x y → ¬ S y x) (ordered : rest.Pairwise S)
    (perm : rest.Perm (y :: others)) (ahead : ∀ z ∈ others, S y z) :
    ∃ rest', rest = y :: rest' ∧ rest'.Perm others := by
  cases rest with
  | nil => cases perm.nil_eq
  | cons z rest' =>
    obtain ⟨below, _⟩ := List.pairwise_cons.mp ordered
    obtain rfl : z = y := by
      rcases List.mem_cons.mp (perm.mem_iff.mp List.mem_cons_self) with same | other
      · exact same
      · rcases List.mem_cons.mp (perm.mem_iff.mpr List.mem_cons_self) with same | later
        · exact same.symm
        · exact absurd (below y later) (asymm y z (ahead z other))
    exact ⟨rest', rfl, perm.cons_inv⟩

theorem Taking.size (taking : Taking S left₀ right₀ all taken left right) (perm : all.Perm (left₀ ++ right₀)) :
    taken.length + left.length + right.length = left₀.length + right₀.length := by
  obtain ⟨rest, rfl, remaining⟩ := taking.behind
  have sizes := perm.length_eq
  have sizes' := remaining.length_eq
  simp only [List.length_append, List.length_reverse] at sizes sizes'
  omega

theorem Taking.more (taking : Taking S left₀ right₀ all taken left right) (perm : all.Perm (left₀ ++ right₀))
    (few : taken.length < left₀.length) (few' : taken.length < right₀.length) :
    ∃ x xs y ys, left = x :: xs ∧ right = y :: ys := by
  have size := taking.size perm
  have leftSize := taking.left.length_le
  have rightSize := taking.right.length_le
  obtain ⟨x, xs, rfl⟩ := List.exists_cons_of_length_pos (l := left) (by omega)
  obtain ⟨y, ys, rfl⟩ := List.exists_cons_of_length_pos (l := right) (by omega)
  exact ⟨x, xs, y, ys, rfl, rfl⟩

theorem Taking.splits (taking : Taking S left₀ right₀ all taken left right) (perm : all.Perm (left₀ ++ right₀)) :
    ∃ first first', first ++ left = left₀ ∧ first' ++ right = right₀ ∧ taken.Perm (first ++ first') := by
  obtain ⟨⟨rest, rfl, remaining⟩, ⟨first, rfl⟩, ⟨first', rfl⟩⟩ := taking
  refine ⟨first, first', rfl, rfl, (List.perm_append_right_iff rest).mp ?_⟩
  calc (taken ++ rest).Perm (taken.reverse ++ rest) := (List.reverse_perm taken).symm.append_right rest
    _ |>.Perm (first ++ left ++ (first' ++ right)) := perm
    _ |>.Perm (first ++ first' ++ (left ++ right)) := by
        simp only [List.append_assoc]
        exact (List.perm_append_comm_assoc _ _ _).append_left first
    _ |>.Perm (first ++ first' ++ rest) := remaining.symm.append_left _

variable (asymm : ∀ x y, S x y → ¬ S y x) (trans : ∀ x y z, S x y → S y z → S x z) (ordered : all.Pairwise S)
  (first : left₀.Pairwise S) (second : right₀.Pairwise S) {x y : ι} {xs ys : List ι}
  (taking : Taking S left₀ right₀ all taken (x :: xs) (y :: ys))

include asymm trans ordered first second taking

theorem Taking.takeRight (yx : S y x) : Taking S left₀ right₀ all (y :: taken) (x :: xs) ys := by
  obtain ⟨rest, same, remaining⟩ := taking.behind
  have below := (List.pairwise_cons.mp (first.sublist taking.left.sublist)).1
  have below' := (List.pairwise_cons.mp (second.sublist taking.right.sublist)).1
  obtain ⟨rest', rfl, perm⟩ := leastFirst asymm (List.pairwise_append.mp (same ▸ ordered)).2.1
    (remaining.trans List.perm_middle) (nextAhead trans below below' yx)
  exact ⟨⟨rest', by simp [same], perm⟩, taking.left, (List.suffix_cons y ys).trans taking.right⟩

theorem Taking.takeLeft (xy : S x y) : Taking S left₀ right₀ all (x :: taken) xs (y :: ys) := by
  obtain ⟨rest, same, remaining⟩ := taking.behind
  have below := (List.pairwise_cons.mp (first.sublist taking.left.sublist)).1
  have below' := (List.pairwise_cons.mp (second.sublist taking.right.sublist)).1
  obtain ⟨rest', rfl, perm⟩ := leastFirst asymm (List.pairwise_append.mp (same ▸ ordered)).2.1 remaining
    fun z inside => nextAhead trans below' below xy z (List.perm_append_comm.mem_iff.mp inside)
  exact ⟨⟨rest', by simp [same], perm⟩, (List.suffix_cons x xs).trans taking.left, taking.right⟩

end Taking

variable {less : ι → ι → Bool} {precedes : ι → ι → Prop} {left right all : List ι} {m : Meeting ι}

structure Halfway (precedes : ι → ι → Prop) (left right all : List ι) (taken : Nat) (m : Meeting ι) : Prop where
  front : Taking precedes left right all m.low m.left m.right
  back : Taking (fun a b => precedes b a) left.reverse right.reverse all.reverse m.high m.leftBack m.rightBack
  low : m.low.length = taken
  high : m.high.length = taken

section Steps

variable (ranks : Ranks less precedes) (ordered : left.Pairwise precedes) (ordered' : right.Pairwise precedes)
  (across : ∀ x ∈ left, ∀ y ∈ right, Before less precedes x y) (arranged : Arranged precedes (left ++ right) all)

include ranks ordered ordered' across arranged

theorem frontGives {n : Nat} (halfway : Halfway precedes left right all n m) (few : n < left.length)
    (few' : n < right.length) : m.front.Gives less fun m' =>
      Taking precedes left right all m'.low m'.left m'.right ∧ m'.low.length = n + 1 ∧
        m'.high = m.high ∧ m'.leftBack = m.leftBack ∧ m'.rightBack = m.rightBack := by
  have asymm : ∀ x y, precedes x y → ¬ precedes y x := fun _ _ => ranks.asymm
  have front := halfway.front
  obtain ⟨x, xs, y, ys, isLeft, isRight⟩ := front.more arranged.perm (halfway.low.symm ▸ few) (halfway.low.symm ▸ few')
  rw [isLeft, isRight] at front
  have here := across x (front.left.subset List.mem_cons_self) y (front.right.subset List.mem_cons_self)
  unfold Meeting.front
  simp only [isLeft, isRight]
  refine givesCompare (ranks.fair here).2 ?_
  cases known : less y x with
  | true =>
    exact ⟨front.takeRight asymm ranks.trans arranged.ordered ordered ordered' (ranks.ofLess y x known),
      congrArg (· + 1) halfway.low, rfl, rfl, rfl⟩
  | false =>
    exact ⟨front.takeLeft asymm ranks.trans arranged.ordered ordered ordered' (here known),
      congrArg (· + 1) halfway.low, rfl, rfl, rfl⟩

theorem backGives {n : Nat} (back : Taking (fun a b => precedes b a) left.reverse right.reverse all.reverse m.high
      m.leftBack m.rightBack) (size : m.high.length = n) (few : n < left.length) (few' : n < right.length) :
    m.back.Gives less fun m' =>
      Taking (fun a b => precedes b a) left.reverse right.reverse all.reverse m'.high m'.leftBack m'.rightBack ∧
        m'.high.length = n + 1 ∧ m'.low = m.low ∧ m'.left = m.left ∧ m'.right = m.right := by
  have asymm : ∀ x y, precedes y x → ¬ precedes x y := fun _ _ => ranks.asymm
  have trans : ∀ x y z, precedes y x → precedes z y → precedes z x := fun x y z yx zy => ranks.trans z y x zy yx
  have perm : all.reverse.Perm (left.reverse ++ right.reverse) :=
    (List.reverse_perm all).trans (arranged.perm.trans ((List.reverse_perm left).append (List.reverse_perm right)).symm)
  obtain ⟨x, xs, y, ys, isLeft, isRight⟩ := back.more perm (by simpa [size] using few) (by simpa [size] using few')
  rw [isLeft, isRight] at back
  have here := across x (List.mem_reverse.mp (back.left.subset List.mem_cons_self)) y
    (List.mem_reverse.mp (back.right.subset List.mem_cons_self))
  have ordered := List.pairwise_reverse.mpr ordered
  have ordered' := List.pairwise_reverse.mpr ordered'
  have whole := List.pairwise_reverse.mpr arranged.ordered
  unfold Meeting.back
  simp only [isLeft, isRight]
  refine givesCompare (ranks.fair here).2 ?_
  cases known : less y x with
  | true =>
    exact ⟨back.takeLeft asymm trans whole ordered ordered' (ranks.ofLess y x known), congrArg (· + 1) size, rfl, rfl, rfl⟩
  | false =>
    exact ⟨back.takeRight asymm trans whole ordered ordered' (here known), congrArg (· + 1) size, rfl, rfl, rfl⟩

theorem bothGive {n : Nat} (halfway : Halfway precedes left right all n m) (few : n < left.length)
    (few' : n < right.length) : m.both.Gives less (Halfway precedes left right all (n + 1)) := by
  refine givesBind (frontGives ranks ordered ordered' across arranged halfway few few')
    fun m' ⟨front, low, high, leftBack, rightBack⟩ => ?_
  have back := halfway.back
  rw [← high, ← leftBack, ← rightBack] at back
  refine (backGives ranks ordered ordered' across arranged back (high ▸ halfway.high) few few').imp
    fun m'' ⟨back, high, same, sameLeft, sameRight⟩ => ?_
  rw [← same, ← sameLeft, ← sameRight] at front
  exact ⟨front, back, same ▸ low, high⟩

theorem stepsGive {n taken : Nat} (halfway : Halfway precedes left right all taken m) (few : taken + n ≤ left.length)
    (few' : taken + n ≤ right.length) :
    (Meeting.steps n m).Gives less (Halfway precedes left right all (taken + n)) := by
  induction n generalizing taken m with
  | zero => exact halfway
  | succ n ih =>
    refine givesBind (bothGive ranks ordered ordered' across arranged halfway (by omega) (by omega)) fun m' halfway => ?_
    rw [← Nat.add_assoc, Nat.add_right_comm]
    exact ih halfway (by omega) (by omega)

end Steps

theorem gapBetween {left₁ left rest last : List ι} (front : left₁ ++ left = rest.reverse ++ last)
    (apart : ∀ x ∈ left₁, x ∉ last) :
    ∃ gap, left = gap ++ last ∧ left.length + rest.length = (left₁ ++ left).length + gap.length := by
  obtain ⟨gap, remaining, same⟩ : ∃ gap, left = gap ++ last ∧ rest.reverse = left₁ ++ gap := by
    rcases List.append_eq_append_iff.mp front with ⟨gap, same, remaining⟩ | ⟨both, same, remaining⟩
    · exact ⟨gap, remaining, same⟩
    · cases both with
      | nil => exact ⟨[], by simpa using remaining.symm, by simpa using same.symm⟩
      | cons x both => exact absurd (by simp [remaining]) (apart x (by simp [same]))
  have size := congrArg List.length same
  rw [List.length_reverse, List.length_append] at size
  refine ⟨gap, remaining, ?_⟩
  rw [size, List.length_append]
  omega

theorem Halfway.parts {n : Nat} (halfway : Halfway precedes left right all n m) (nodup : all.Nodup)
    (arranged : Arranged precedes (left ++ right) all) (size : n = left.length) (more : n ≤ right.length) :
    ∃ gap gap' last last' between, m.left = gap ++ last ∧ m.right = gap' ++ last' ∧ between.Perm (gap ++ gap') ∧
      all = m.low.reverse ++ between ++ m.high ∧ m.left.length + m.leftBack.length = left.length + gap.length ∧
      m.right.length + m.rightBack.length = right.length + gap'.length := by
  obtain ⟨front, back, low, high⟩ := halfway
  obtain ⟨first, first', isLeft, isRight, taken⟩ := front.splits arranged.perm
  obtain ⟨last, last', isLeft', isRight', taken'⟩ := back.splits
    ((List.reverse_perm all).trans (arranged.perm.trans ((List.reverse_perm left).append (List.reverse_perm right)).symm))
  obtain ⟨rest, same, remaining⟩ := front.behind
  obtain ⟨rest', same', -⟩ := back.behind
  -- the two ends have not met, so there is room between them
  obtain ⟨between, rfl⟩ : m.high <:+ rest := by
    have ends : m.high <:+ all := ⟨rest'.reverse, by rw [← List.reverse_inj, same']; simp⟩
    refine List.suffix_of_suffix_length_le ends ⟨m.low.reverse, same.symm⟩ ?_
    · have sizes := arranged.perm.length_eq
      rw [same] at sizes
      simp only [List.length_append, List.length_reverse] at sizes
      omega
  rw [same, ← List.append_assoc] at nodup
  have apart {x : ι} (low : x ∈ m.low) : x ∉ m.high := fun high =>
    (List.nodup_append.mp nodup).2.2 x (by simp [low]) x high rfl
  have meets : first ++ m.left = m.leftBack.reverse ++ last.reverse := by
    rw [isLeft, ← List.reverse_append, isLeft', List.reverse_reverse]
  have meets' : first' ++ m.right = m.rightBack.reverse ++ last'.reverse := by
    rw [isRight, ← List.reverse_append, isRight', List.reverse_reverse]
  obtain ⟨gap, leftIs, sizes⟩ := gapBetween meets fun x inside later =>
      apart (taken.mem_iff.mpr (List.mem_append_left _ inside))
        (taken'.mem_iff.mpr (List.mem_append_left _ (List.mem_reverse.mp later)))
  obtain ⟨gap', rightIs, sizes'⟩ := gapBetween meets' fun x inside later =>
      apart (taken.mem_iff.mpr (List.mem_append_right _ inside))
        (taken'.mem_iff.mpr (List.mem_append_right _ (List.mem_reverse.mp later)))
  rw [isLeft] at sizes
  rw [isRight] at sizes'
  refine ⟨gap, gap', _, _, between, leftIs, rightIs, ?_, by rw [same, List.append_assoc], sizes, sizes'⟩
  refine (List.perm_append_right_iff m.high).mp (remaining.trans ?_)
  rw [leftIs, rightIs]
  calc (gap ++ last.reverse ++ (gap' ++ last'.reverse)).Perm (gap ++ gap' ++ (last.reverse ++ last'.reverse)) := by
        simp only [List.append_assoc]
        exact (List.perm_append_comm_assoc _ _ _).append_left gap
    _ |>.Perm (gap ++ gap' ++ m.high) :=
        (((List.reverse_perm last).append (List.reverse_perm last')).trans taken'.symm).append_left _

theorem Halfway.close {n : Nat} (halfway : Halfway precedes left right all n m) (nodup : all.Nodup)
    (arranged : Arranged precedes (left ++ right) all) (size : n = left.length) (more : n ≤ right.length)
    (few : right.length ≤ n + 1) : (m.close left.length right.length).Gives less (· = all) := by
  obtain ⟨gap, gap', last, last', between, leftIs, rightIs, perm, whole, sizes, sizes'⟩ :=
    halfway.parts nodup arranged size more
  have count := arranged.perm.length_eq
  have count' := perm.length_eq
  have low := halfway.low
  have high := halfway.high
  rw [whole] at count
  simp only [List.length_append, List.length_reverse] at count count'
  unfold Meeting.close
  by_cases even : right.length = n
  · -- nothing stands between the ends
    obtain rfl : gap = [] := List.length_eq_zero_iff.mp (by omega)
    obtain rfl : gap' = [] := List.length_eq_zero_iff.mp (by omega)
    obtain rfl : between = [] := perm.eq_nil
    rw [if_pos (by omega)]
    dsimp only
    rw [if_pos ⟨by simpa using sizes, by simpa using sizes'⟩]
    exact whole.symm
  · rw [if_neg (by omega)]
    unfold Meeting.middle
    by_cases inLeft : left.length < m.left.length + m.leftBack.length
    · obtain ⟨z, rfl⟩ : ∃ z, gap = [z] := List.length_eq_one_iff.mp (by omega)
      obtain rfl : gap' = [] := List.length_eq_zero_iff.mp (by simp at count'; omega)
      obtain rfl : between = [z] := List.perm_singleton.mp perm
      rw [if_pos inLeft]
      dsimp only
      rw [leftIs] at sizes ⊢
      rw [if_pos ⟨by simp at sizes ⊢; omega, by simpa using sizes'⟩]
      exact whole.symm
    · obtain rfl : gap = [] := List.length_eq_zero_iff.mp (by omega)
      obtain ⟨z, rfl⟩ : ∃ z, gap' = [z] := List.length_eq_one_iff.mp (by simp at count'; omega)
      obtain rfl : between = [z] := List.perm_singleton.mp perm
      rw [if_neg inLeft]
      dsimp only
      rw [rightIs] at sizes' ⊢
      rw [if_pos ⟨by simpa using sizes, by simp at sizes' ⊢; omega⟩]
      exact whole.symm

theorem meetGives (ranks : Ranks less precedes) (ordered : left.Pairwise precedes) (ordered' : right.Pairwise precedes)
    (across : ∀ x ∈ left, ∀ y ∈ right, Before less precedes x y) (more : left.length ≤ right.length)
    (few : right.length ≤ left.length + 1) : (meet left right).Gives less (Arranged precedes (left ++ right)) := by
  have calm : Calm less precedes (left ++ right) :=
    List.pairwise_append.mpr ⟨orderedCalm ordered, orderedCalm ordered', across⟩
  obtain ⟨all, arranged⟩ := (insertedGives ranks calm).ends
  have start : Halfway precedes left right all 0 ⟨left, right, left.reverse, right.reverse, [], []⟩ :=
    ⟨⟨⟨all, rfl, arranged.perm⟩, List.suffix_rfl, List.suffix_rfl⟩,
      ⟨⟨all.reverse, rfl, (List.reverse_perm all).trans (arranged.perm.trans
        ((List.reverse_perm left).append (List.reverse_perm right)).symm)⟩, List.suffix_rfl, List.suffix_rfl⟩, rfl, rfl⟩
  have nodup := ranks.nodup (orderedCalm arranged.ordered)
  refine givesBind (stepsGive ranks ordered ordered' across arranged start (by omega) (by omega)) fun m halfway => ?_
  refine (halfway.close nodup arranged (Nat.zero_add _) (by omega) (by omega)).imp ?_
  rintro out rfl
  exact arranged

theorem shortGives (ranks : Ranks less precedes) {items : List ι} (calm : Calm less precedes items) :
    (sortShort items).Gives less (Arranged precedes items) := by
  unfold sortShort
  by_cases few : items.length < 2
  · rw [if_pos few]
    refine ⟨.refl _, ?_⟩
    match items, few with
    | [], _ => exact .nil
    | [x], _ => exact List.pairwise_singleton _ x
  · rw [if_neg few]
    have same := List.take_append_drop (items.length / 2) items
    rw [← same] at calm
    obtain ⟨first, second, across⟩ := List.pairwise_append.mp calm
    refine givesBind (halfGives ranks first) fun left arranged =>
      givesBind (halfGives ranks second) fun right arranged' => ?_
    have leftSize := arranged.perm.length_eq
    have rightSize := arranged'.perm.length_eq
    rw [List.length_take] at leftSize
    rw [List.length_drop] at rightSize
    refine (meetGives ranks arranged.ordered arranged'.ordered (arranged.across arranged'.perm across) (by omega)
      (by omega)).imp fun out given => ⟨?_, given.ordered⟩
    exact same ▸ given.perm.trans (arranged.perm.append arranged'.perm)

end Meeting

end SymbolicQuery.Sorter
