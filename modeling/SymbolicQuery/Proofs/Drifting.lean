import SymbolicQuery.Proofs.Arranging
import SymbolicQuery.Sorter.Drift

/-! Sorts of long lists. A pivot splits a list into items that may be sorted apart; runs stand one behind the other as
the items did, so merging neighbours keeps what stood first in front. A pivot is compared with itself only where some
other item is equal to it. -/
namespace SymbolicQuery.Sorter

variable {ι : Type} {less : ι → ι → Bool} {precedes : ι → ι → Prop}

section Quick

variable {items : List ι} {p : ι}

theorem splitGives {goesLeft : ι → Sorter ι Bool} {test : ι → Bool} {left right : List ι}
    (each : ∀ x ∈ items, (goesLeft x).Gives less (· = test x)) :
    (split goesLeft left right items).Gives less
      (· = (left.reverse ++ items.filter test, right.reverse ++ items.filter (!test ·))) := by
  induction items generalizing left right with
  | nil => simp [split, Gives, pure]
  | cons x rest ih =>
    obtain ⟨here, later⟩ := List.forall_mem_cons.mp each
    unfold split
    refine givesBind here fun b same => ?_
    subst same
    cases known : test x with
    | true =>
      refine (ih later).imp fun out same => same.trans ?_
      simp [known]
    | false =>
      refine (ih later).imp fun out same => same.trans ?_
      simp [known]

theorem repeatsGives {earlier : Option ι} (fair : ∀ e, earlier = some e → Fair less e p) :
    (repeats p earlier).Gives less fun again => again = true → ∃ e, earlier = some e ∧ less e p = false := by
  cases earlier with
  | none => exact nofun
  | some e => exact ⟨fair e rfl, fun again => ⟨e, rfl, by simpa using again⟩⟩

def Least (less : ι → ι → Bool) (items : List ι) (p : ι) : Prop := ∀ x ∈ items, less x p = false

variable (ranks : Ranks less precedes)

include ranks

theorem medianGives {a b c : ι} (ab : a ≠ b) (ac : a ≠ c) (bc : b ≠ c) :
    (median a b c).Gives less fun p => p ∈ [a, b, c] ∧ ∃ z ∈ [a, b, c], z ≠ p ∧ less p z = false := by
  have asymm {x y : ι} (known : less x y = true) : less y x = false := ranks.notLess (ranks.ofLess x y known)
  refine givesCompare (.inl ab) (givesCompare (.inl ac) ?_)
  cases first : less a b <;> cases second : less a c
  · refine givesCompare (.inl bc) ?_
    cases third : less b c
    · exact ⟨by simp, c, by simp, bc.symm, third⟩
    · exact ⟨by simp, b, by simp, bc, asymm third⟩
  · exact ⟨by simp, b, by simp, ab.symm, first⟩
  · exact ⟨by simp, c, by simp, ac.symm, second⟩
  · refine givesCompare (.inl bc) ?_
    cases third : less b c
    · exact ⟨by simp, a, by simp, ac, asymm second⟩
    · exact ⟨by simp, a, by simp, ab, asymm first⟩

theorem piecesApart (calm : Calm less precedes items) {n : Nat} {a b c : ι} (first : a ∈ items.take n)
    (second : b ∈ (items.drop (4 * n)).take n) (third : c ∈ items.drop (7 * n)) : a ≠ b ∧ a ≠ c ∧ b ≠ c := by
  -- each piece stands behind the one before it
  have behind {k : Nat} {xs : List ι} (calm : Calm less precedes xs) {x y : ι} (inside : x ∈ xs.take n)
      (later : y ∈ xs.drop (n + k)) : x ≠ y := by
    rw [← List.take_append_drop n xs] at calm
    rw [← List.drop_drop] at later
    exact ranks.apart ((List.pairwise_append.mp calm).2.2 x inside y (List.mem_of_mem_drop later))
  refine ⟨behind (k := 3 * n) calm first ?_, behind (k := 6 * n) calm first ?_,
    behind (k := 2 * n) (calm.sublist (List.drop_sublist (4 * n) items)) second ?_⟩
  · rw [show n + 3 * n = 4 * n by omega]
    exact List.mem_of_mem_take second
  · rwa [show n + 6 * n = 7 * n by omega]
  · rwa [List.drop_drop, show 4 * n + (n + 2 * n) = 7 * n by omega]

theorem pivotOf (calm : Calm less precedes items) {n : Nat} {a b c : ι} (first : a ∈ items.take n)
    (second : b ∈ (items.drop (4 * n)).take n) (third : c ∈ items.drop (7 * n)) :
    (median a b c).Gives less fun p => p ∈ items ∧ ∃ z ∈ items, z ≠ p ∧ less p z = false := by
  obtain ⟨ab, ac, bc⟩ := piecesApart ranks calm first second third
  have among : ∀ x ∈ [a, b, c], x ∈ items := by
    simp only [List.mem_cons, List.not_mem_nil, or_false, forall_eq_or_imp, forall_eq]
    exact ⟨List.mem_of_mem_take first, List.mem_of_mem_drop (List.mem_of_mem_take second), List.mem_of_mem_drop third⟩
  exact (medianGives ranks ab ac bc).imp fun p ⟨inside, z, inside', other⟩ =>
    ⟨among p inside, z, among z inside', other⟩

theorem pivotGives (calm : Calm less precedes items) (many : 8 ≤ items.length) :
    (pivot items).Gives less fun p => p ∈ items ∧ ∃ z ∈ items, z ≠ p ∧ less p z = false := by
  induction size : items.length using Nat.strongRecOn generalizing items with
  | ind size' ih =>
    unfold pivot
    dsimp only
    generalize known : items.length / 8 = n
    split
    · rename_i large
      have piece {xs : List ι} (within : xs.Sublist items) (enough : n ≤ xs.length) :
          (pivot (xs.take n)).Gives less (· ∈ xs.take n) := by
        have length := List.length_take_of_le enough
        exact (ih n (by omega) (calm.sublist ((List.take_sublist n xs).trans within)) (by omega) length).imp
          fun _ => And.left
      refine givesBind (piece (.refl items) (by omega)) fun a first =>
        givesBind (piece (List.drop_sublist (4 * n) items) (by rw [List.length_drop]; omega)) fun b second =>
          givesBind (piece (List.drop_sublist (7 * n) items) (by rw [List.length_drop]; omega)) fun c third => ?_
      exact pivotOf ranks calm first second (List.mem_of_mem_take third)
    · obtain ⟨a, as, first⟩ := List.exists_cons_of_length_pos (l := items) (by omega)
      obtain ⟨b, bs, second⟩ := List.exists_cons_of_length_pos (l := items.drop (4 * n)) (by rw [List.length_drop]; omega)
      obtain ⟨c, cs, third⟩ := List.exists_cons_of_length_pos (l := items.drop (7 * n)) (by rw [List.length_drop]; omega)
      obtain ⟨n, rfl⟩ : ∃ k, n = k + 1 := ⟨n - 1, by omega⟩
      have here : a ∈ items.take (n + 1) := first ▸ List.mem_cons_self
      have next : b ∈ (items.drop (4 * (n + 1))).take (n + 1) := second ▸ List.mem_cons_self
      have last : c ∈ items.drop (7 * (n + 1)) := third ▸ List.mem_cons_self
      rw [second, third]
      subst first
      exact pivotOf ranks calm here next last

theorem leastOf {e : ι} (least : Least less items e) (other : less e p = false) :
    Least less items p := by
  intro x inside
  cases known : less x p with
  | false => rfl
  | true =>
    rcases ranks.between x e p known with low | high
    · exact low.symm.trans (least x inside)
    · exact high.symm.trans other

theorem equalArranged (calm : Calm less precedes items) (least : Least less items p) {sorted : List ι}
    (arranged : Arranged precedes (items.filter (less p ·)) sorted) :
    Arranged precedes items (items.filter (!less p ·) ++ sorted) := by
  refine ⟨(arranged.perm.append_left _).trans (List.perm_append_comm.trans (List.filter_append_perm _ _)),
    List.pairwise_append.mpr ⟨?_, arranged.ordered, fun x inside y inside' => ?_⟩⟩
  · refine (calm.sublist List.filter_sublist).imp_of_mem fun {x y} inside inside' stands => stands ?_
    cases known : less y x with
    | false => rfl
    | true =>
      rcases ranks.between y p x known with low | high
      · exact low.symm.trans (least y (List.mem_filter.mp inside').1)
      · exact absurd (List.mem_filter.mp inside).2 (by simp [high])
  · have above := (List.mem_filter.mp (arranged.perm.mem_iff.mp inside')).2
    rcases ranks.between p x y above with low | high
    · exact absurd (List.mem_filter.mp inside).2 (by simp [low])
    · exact ranks.ofLess x y high

theorem partsArranged {left right : List ι} (arranged : Arranged precedes (items.filter (less · p)) left)
    (arranged' : Arranged precedes (items.filter (!less · p)) right) : Arranged precedes items (left ++ right) := by
  refine ⟨(arranged.perm.append arranged'.perm).trans (List.filter_append_perm _ _),
    List.pairwise_append.mpr ⟨arranged.ordered, arranged'.ordered, fun x inside y inside' => ?_⟩⟩
  have below := (List.mem_filter.mp (arranged.perm.mem_iff.mp inside)).2
  have above := (List.mem_filter.mp (arranged'.perm.mem_iff.mp inside')).2
  rcases ranks.between x y p below with low | high
  · exact ranks.ofLess x y low
  · exact absurd above (by simp [high])

variable [DecidableEq ι]

theorem splitLessGives : (splitLess p items).Gives less
    (· = (items.filter (less · p), items.filter (!less · p))) := by
  have each : ∀ x ∈ items, (if x = p then return false else Sorter.less x p : Sorter ι Bool).Gives less
      (· = less x p) := by
    intro x _
    by_cases same : x = p
    · rw [if_pos same, same]
      exact ranks.notSelf.symm
    · rw [if_neg same]
      exact ⟨.inl same, rfl⟩
  exact (splitGives each).imp fun out same => same.trans (by simp)

theorem splitEqualGives : (splitEqual p items).Gives less
    (· = (items.filter (!less p ·), items.filter (less p ·))) := by
  have each : ∀ x ∈ items, (if x = p then return true else return !(← Sorter.less p x) : Sorter ι Bool).Gives less
      (· = !less p x) := by
    intro x _
    by_cases same : x = p
    · rw [if_pos same, same, ranks.notSelf]
      exact rfl
    · rw [if_neg same]
      exact ⟨.inl (Ne.symm same), rfl⟩
  exact (splitGives each).imp fun out same => same.trans (by simp)

theorem divideGives {earlier : Option ι} (beyond : ∀ e, earlier = some e → Least less items e)
    (tied : ∃ z ∈ items, z ≠ p ∧ less p z = false) :
    (divide p earlier items).Gives less fun parts => parts.1 = [] ∧ Least less items p ∨
      parts = (items.filter (less · p), items.filter (!less · p)) := by
  obtain ⟨z, inside, apart, other⟩ := tied
  -- an earlier pivot that is chosen again has an equal, since nothing is less than it
  have fair : ∀ e, earlier = some e → Fair less e p := fun e same => by
    by_cases again : e = p
    · subst again
      exact .inr ⟨z, apart, other, beyond e same z inside⟩
    · exact .inl again
  refine givesBind (repeatsGives fair) fun again repeated => ?_
  cases again with
  | true =>
    obtain ⟨e, same, other⟩ := repeated rfl
    exact .inl ⟨rfl, leastOf ranks (beyond e same) other⟩
  | false => exact (splitLessGives ranks).imp fun parts same => .inr same

theorem quicksortGives {balanced : List ι → Sorter ι (List ι)}
    (balances : ∀ items, Calm less precedes items → (balanced items).Gives less (Arranged precedes items))
    {limit : Nat} {earlier : Option ι} (calm : Calm less precedes items)
    (beyond : ∀ e, earlier = some e → Least less items e) :
    (quicksort balanced limit earlier items).Gives less (Arranged precedes items) := by
  induction limit generalizing earlier items with
  | zero =>
    unfold quicksort
    split
    · exact shortGives ranks calm
    · exact balances items calm
  | succ limit ih =>
    unfold quicksort
    split
    · exact shortGives ranks calm
    · refine givesBind (pivotGives ranks calm (by omega)) fun p ⟨_, tied⟩ =>
        givesBind (divideGives ranks beyond tied) fun ⟨left, right⟩ either => ?_
      by_cases none : left = []
      · have least : Least less items p := by
          rcases either with ⟨-, least⟩ | same
          · exact least
          · intro x inside
            have empty := (congrArg Prod.fst same).symm.trans none
            simpa using List.filter_eq_nil_iff.mp empty x inside
        dsimp only
        rw [if_pos (List.isEmpty_iff.mpr none)]
        refine givesBind (splitEqualGives ranks) ?_
        rintro _ rfl
        exact givesBind (ih (calm.sublist List.filter_sublist) nofun) fun sorted arranged =>
          equalArranged ranks calm least arranged
      · obtain ⟨rfl, rfl⟩ := Prod.mk.inj (either.resolve_left fun ⟨empty, _⟩ => none empty)
        dsimp only
        rw [if_neg (fun empty => none (List.isEmpty_iff.mp empty))]
        have past : ∀ e, some p = some e → Least less (items.filter (!less · p)) e := by
          rintro e ⟨⟩ x inside
          simpa using (List.mem_filter.mp inside).2
        have beyond' : ∀ e, earlier = some e → Least less (items.filter (less · p)) e := fun e same x inside =>
          beyond e same x (List.mem_filter.mp inside).1
        exact givesBind (ih (calm.sublist List.filter_sublist) past) fun right arranged' =>
          givesBind (ih (calm.sublist List.filter_sublist) beyond') fun left arranged =>
            partsArranged ranks arranged arranged'

end Quick

section Runs

variable {items taken : List ι} {last : ι} {descending : Bool}

def Toward (precedes : ι → ι → Prop) (descending : Bool) (x y : ι) : Prop :=
  if descending then precedes y x else precedes x y

variable (ranks : Ranks less precedes)

include ranks

theorem runOnGives (calm : Calm less precedes (last :: items))
    (ordered : (last :: taken).Pairwise fun x y => Toward precedes descending y x) :
    (runOn descending last taken items).Gives less fun parts => ∃ before, items = before ++ parts.2 ∧
      parts.1.reverse = (last :: taken).reverse ++ before ∧
      parts.1.Pairwise fun x y => Toward precedes descending y x := by
  have trans : ∀ x y z, Toward precedes descending x y → Toward precedes descending y z →
      Toward precedes descending x z := by
    cases descending with
    | false => exact ranks.trans
    | true => exact fun x y z yx zy => ranks.trans z y x zy yx
  induction items generalizing last taken with
  | nil => exact ⟨[], rfl, (List.append_nil _).symm, ordered⟩
  | cons x rest ih =>
    obtain ⟨behind, calm⟩ := List.pairwise_cons.mp calm
    have here := behind x List.mem_cons_self
    unfold runOn
    refine givesCompare (ranks.fair here).2 ?_
    split
    · rename_i known
      have next : Toward precedes descending last x := by
        cases descending with
        | false => exact here known
        | true => exact ranks.ofLess x last known
      refine (ih calm (List.pairwise_cons.mpr ⟨fun y inside => ?_, ordered⟩)).imp ?_
      · rcases List.mem_cons.mp inside with rfl | old
        · exact next
        · exact trans y last x ((List.pairwise_cons.mp ordered).1 y old) next
      · rintro parts ⟨before, same, whole, ordered⟩
        exact ⟨x :: before, congrArg (x :: ·) same, by simp [whole], ordered⟩
    · exact ⟨[], rfl, (List.append_nil _).symm, ordered⟩

theorem existingGives (calm : Calm less precedes items) :
    (existingRun items).Gives less fun parts => ∃ before, items = before ++ parts.2 ∧
      Arranged precedes before parts.1 := by
  unfold existingRun
  split
  · rename_i x y rest
    obtain ⟨behind, calm⟩ := List.pairwise_cons.mp calm
    have here := behind y List.mem_cons_self
    refine givesCompare (ranks.fair here).2 ?_
    generalize known : less y x = descending
    have next : Toward precedes descending x y := by
      cases descending with
      | false => exact here known
      | true => exact ranks.ofLess y x known
    refine givesBind (runOnGives ranks calm (List.pairwise_pair.mpr next)) ?_
    rintro parts ⟨before, rfl, whole, ordered⟩
    have whole : parts.1.reverse = x :: y :: before := whole
    refine ⟨x :: y :: before, rfl, ?_⟩
    cases descending with
    | false => exact whole ▸ ⟨.refl _, List.pairwise_reverse.mpr ordered⟩
    | true => exact ⟨whole ▸ (List.reverse_perm parts.1).symm, ordered⟩
  · rename_i few
    refine ⟨items, (List.append_nil items).symm, .refl _, ?_⟩
    match items, few with
    | [], _ => exact .nil
    | [x], _ => exact List.pairwise_singleton _ x
    | x :: y :: rest, few => exact (few x y rest rfl).elim

/-- A run that stands for some items. An eager sort leaves no run unsorted. -/
structure Run.Stands (less : ι → ι → Bool) (precedes : ι → ι → Prop) (eager : Bool) (items : List ι) (run : Run ι) :
    Prop where
  perm : run.items.Perm items
  calm : Calm less precedes run.items
  ordered : run.sorted = true → run.items.Pairwise precedes
  eager : eager = true → run.sorted = true

omit ranks in
theorem Arranged.stands {out : List ι} (arranged : Arranged precedes items out) (eager : Bool) :
    Run.Stands less precedes eager items ⟨out, true⟩ :=
  ⟨arranged.perm, orderedCalm arranged.ordered, fun _ => arranged.ordered, fun _ => rfl⟩

theorem nextGives {good : Nat} {eager : Bool} (calm : Calm less precedes items) (some : 0 < good) (more : items ≠ []) :
    (nextRun good eager items).Gives less fun parts => ∃ before, items = before ++ parts.2 ∧ before ≠ [] ∧
      parts.1.Stands less precedes eager before := by
  have existing : (longRun good items).Gives less fun parts =>
      ∃ before, items = before ++ parts.2 ∧ Arranged precedes before parts.1 := by
    unfold longRun
    split
    · exact existingGives ranks calm
    · exact ⟨[], rfl, .refl _, .nil⟩
  unfold nextRun
  refine givesBind existing ?_
  rintro ⟨run, rest⟩ ⟨before, same, arranged⟩
  dsimp only
  split
  · rename_i long
    refine ⟨before, same, ?_, arranged.stands eager⟩
    rintro rfl
    rw [arranged.perm.length_eq] at long
    exact Nat.not_lt_of_le long some
  · have taken {n : Nat} (some : 0 < n) : items.take n ≠ [] := fun none =>
      (List.take_eq_nil_iff.mp none).elim (Nat.ne_of_gt some) more
    split
    · refine givesBind (shortGives ranks (calm.sublist (List.take_sublist 32 items))) fun out arranged => ?_
      exact ⟨_, (List.take_append_drop 32 items).symm, taken (by decide), arranged.stands eager⟩
    · rename_i late
      exact ⟨_, (List.take_append_drop good items).symm, taken some, .refl _, calm.sublist (List.take_sublist good items),
        nofun, fun now => absurd now late⟩

end Runs

section Tree

variable {quick : List ι → Sorter ι (List ι)} {room : Nat} {eager : Bool} {items : List ι}

/-- Runs that wait for the one that comes after them. Each of them stands for the items between its neighbours, and the
first of all for none. -/
inductive Waits (less : ι → ι → Bool) (precedes : ι → ι → Prop) (eager : Bool) :
    List (Run ι × Nat) → Run ι → List ι → Prop where
  | ground {run : Run ι} (stands : run.Stands less precedes eager []) : Waits less precedes eager [] run []
  | next {stack : List (Run ι × Nat)} {below run : Run ι} {before own : List ι} (depth : Nat)
      (waits : Waits less precedes eager stack below before) (stands : run.Stands less precedes eager own) :
      Waits less precedes eager ((below, depth) :: stack) run (before ++ own)

section Drive

variable (ranks : Ranks less precedes)
  (sorts : eager = false → ∀ items, Calm less precedes items → (quick items).Gives less (Arranged precedes items))

include sorts in
theorem finishGives {run : Run ι} (stands : run.Stands less precedes eager items) :
    (run.finish quick).Gives less (Arranged precedes items) := by
  unfold Run.finish
  split
  · rename_i sorted
    exact ⟨stands.perm, stands.ordered sorted⟩
  · rename_i unsorted
    refine (sorts ?_ run.items stands.calm).imp fun out arranged => ⟨arranged.perm.trans stands.perm, arranged.ordered⟩
    exact eq_false_of_ne_true fun now => unsorted (stands.eager now)

include ranks sorts

theorem joinGives {left right : Run ι} {first second : List ι} (stands : left.Stands less precedes eager first)
    (stands' : right.Stands less precedes eager second) (across : ∀ x ∈ first, ∀ y ∈ second, Before less precedes x y) :
    (join quick room left right).Gives less (Run.Stands less precedes eager (first ++ second)) := by
  unfold join
  split
  · rename_i unsorted
    refine ⟨stands.perm.append stands'.perm, List.pairwise_append.mpr ⟨stands.calm, stands'.calm, ?_⟩, nofun,
      fun now => absurd (stands.eager now) unsorted.2.1⟩
    exact fun x inside y inside' => across x (stands.perm.mem_iff.mp inside) y (stands'.perm.mem_iff.mp inside')
  · refine givesBind (finishGives sorts stands) fun out arranged =>
      givesBind (finishGives sorts stands') fun out' arranged' =>
        givesBind (mergeGives ranks arranged.ordered arranged'.ordered (arranged.across arranged'.perm across))
          fun merged both => ?_
    have whole : Arranged precedes (first ++ second) merged :=
      ⟨both.perm.trans (arranged.perm.append arranged'.perm), both.ordered⟩
    exact whole.stands eager

theorem collapseGives {depth : Nat} {stack : List (Run ι × Nat)} {run : Run ι} {scanned : List ι}
    (waits : Waits less precedes eager stack run scanned) (calm : Calm less precedes scanned) :
    (collapse quick room depth stack run).Gives less fun parts =>
      Waits less precedes eager parts.1 parts.2 scanned ∧ (depth = 0 → parts.1.length ≤ 1) := by
  induction stack generalizing run with
  | nil => exact ⟨waits, fun _ => Nat.zero_le 1⟩
  | cons top stack ih =>
    cases stack with
    | nil => exact ⟨waits, fun _ => Nat.le_refl 1⟩
    | cons below stack =>
      obtain ⟨left, d⟩ := top
      unfold collapse
      split
      · cases waits with
        | next _ waits stands' =>
          cases waits with
          | next _ waits stands =>
            rw [List.append_assoc] at calm ih ⊢
            have across := (List.pairwise_append.mp (List.pairwise_append.mp calm).2.1).2.2
            exact givesBind (joinGives ranks sorts stands stands' across) fun joined stands =>
              ih (.next _ waits stands)
      · rename_i shallow
        exact ⟨waits, fun ground => absurd (ground ▸ Nat.zero_le d) shallow⟩

theorem lastGives {whole good rounds : Nat} {stack : List (Run ι × Nat)} {run : Run ι} {scanned : List ι} (count : Nat)
    (waits : Waits less precedes eager stack run scanned) (calm : Calm less precedes scanned) :
    (drive quick room whole good eager rounds stack run count []).Gives less (Arranged precedes scanned) := by
  unfold drive
  refine givesBind (collapseGives ranks sorts waits calm) ?_
  rintro ⟨stack', all⟩ ⟨waits', few⟩
  cases waits' with
  | ground stands => exact finishGives sorts stands
  | next _ first stands =>
    cases first with
    | ground _ => exact finishGives sorts stands
    | next _ _ _ => exact absurd (few rfl) (by simp)

theorem driveGives {whole good rounds : Nat} {stack : List (Run ι × Nat)} {run : Run ι} {scanned items : List ι}
    (count : Nat) (some : 0 < good) (waits : Waits less precedes eager stack run scanned)
    (calm : Calm less precedes (scanned ++ items)) (enough : items.length ≤ rounds) :
    (drive quick room whole good eager rounds stack run count items).Gives less
      (Arranged precedes (scanned ++ items)) := by
  induction rounds generalizing stack run scanned items count with
  | zero =>
    obtain rfl := List.length_eq_zero_iff.mp (Nat.le_zero.mp enough)
    rw [List.append_nil] at calm ⊢
    exact lastGives ranks sorts count waits calm
  | succ rounds ih =>
    by_cases ended : items = []
    · subst ended
      rw [List.append_nil] at calm ⊢
      exact lastGives ranks sorts count waits calm
    · obtain ⟨first, behind, -⟩ := List.pairwise_append.mp calm
      obtain ⟨x, rest, rfl⟩ := List.exists_cons_of_ne_nil ended
      unfold drive
      refine givesBind (nextGives ranks behind some ended) ?_
      rintro ⟨next, rest'⟩ ⟨before, same, taken, stands⟩
      refine givesBind (collapseGives ranks sorts waits first) fun parts waiting => ?_
      rw [same, ← List.append_assoc] at calm ⊢
      refine ih _ (.next _ waiting.1 stands) calm ?_
      have sizes := congrArg List.length same
      have some' := List.length_pos_of_ne_nil taken
      rw [List.length_append] at sizes
      omega

theorem driftGives (calm : Calm less precedes items) :
    (drift quick eager items).Gives less (Arranged precedes items) := by
  by_cases ended : items = []
  · subst ended
    exact lastGives ranks sorts 0 (.ground ⟨.refl _, .nil, fun _ => .nil, fun _ => rfl⟩) calm
  have more := List.length_pos_of_ne_nil ended
  unfold drift
  refine driveGives ranks sorts 0 ?_ (.ground ⟨.refl _, .nil, fun _ => .nil, fun _ => rfl⟩) calm (Nat.le_refl _)
  split
  · omega
  · rename_i long
    have root : 2 ^ 1 ≤ 2 ^ ((1 + items.length.log2) / 2) :=
      Nat.pow_le_pow_right (by decide) (by
        have high := (Nat.le_log2 (by omega)).mpr (show 2 ^ 1 ≤ items.length by omega)
        omega)
    exact Nat.div_pos (Nat.le_trans root (Nat.le_add_right _ _)) (by decide)

end Drive

end Tree

section Whole

variable [DecidableEq ι] {items : List ι} (ranks : Ranks less precedes)

include ranks

theorem quickGives (calm : Calm less precedes items) : (quick items).Gives less (Arranged precedes items) :=
  quicksortGives ranks (fun _ calm => driftGives ranks (fun lazy => by cases lazy) calm) calm fun _ none => by cases none

theorem sortGives (calm : Calm less precedes items) : (sort items).Gives less (Arranged precedes items) := by
  unfold sort
  split
  · exact insertedGives ranks calm
  · exact driftGives ranks (fun _ _ => quickGives ranks) calm

end Whole

end SymbolicQuery.Sorter
