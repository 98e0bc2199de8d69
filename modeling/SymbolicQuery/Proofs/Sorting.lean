import SymbolicQuery.Proofs.Comparing
import SymbolicQuery.Proofs.Precedence
import SymbolicQuery.Proofs.Tracking

/-! Sorting by several keys. Items are arranged by the first of their keys that differ, and items with equal keys stay
as they were. A pair whose keys do not compare is taken for equal, which may make no sense with the other items; a sort
that does not stop over this meets such a pair wherever it stands, and fails for it. -/
namespace SymbolicQuery.Query

variable {functions : List KeyFunction} {f : KeyFunction} {key : KeyFunction → Value → Value} {a b c x v : Value}

def keyed (functions : List KeyFunction) (key : KeyFunction → Value → Value) (v : Value) : Keyed :=
  (functions.map (key · v), v)

structure Sorts (functions : List KeyFunction) (key : KeyFunction → Value → Value) (items out : List Value) : Prop where
  perm : out.Perm items
  ordered : out.Pairwise (InOrder functions key)
  stable : ∀ ties : List Value, ties.Sublist items → ties.Pairwise (fun a b => tied functions key a b = true) → ties.Sublist out

theorem keysAll {items : List Value}
    (evaluates : ∀ v ∈ items, ∀ f ∈ functions, f.function.call [v] = .ok (key f v)) :
    items.mapM (keysOf functions) = .ok (items.map (keyed functions key)) := by
  have each {α β : Type} {g : α → Except QueryError β} {h : α → β} {xs : List α} (known : ∀ x ∈ xs, g x = .ok (h x)) :
      xs.mapM g = .ok (xs.map h) := by
    induction xs with
    | nil => rfl
    | cons x xs ih =>
      obtain ⟨first, rest⟩ := List.forall_mem_cons.mp known
      rw [List.mapM_cons, first, ih rest]
      rfl
  refine each fun v inside => ?_
  rw [keysOf, each (evaluates v inside)]
  rfl

theorem Sorts.filtered {items out : List Value} (sorts : Sorts functions key items out)
    (exact : ∀ v ∈ items, Exact functions key v) (inside : a ∈ items) :
    out.filter (tied functions key a) = items.filter (tied functions key a) := by
  have alike : (items.filter (tied functions key a)).Pairwise fun b c => tied functions key b c = true := by
    refine List.pairwise_of_forall_mem_list fun b left c right => ?_
    obtain ⟨left, first⟩ := List.mem_filter.mp left
    obtain ⟨right, second⟩ := List.mem_filter.mp right
    exact tiedTrans (exact b left) (exact a inside) (exact c right) (tiedSymm first) second
  have kept := (sorts.stable _ List.filter_sublist alike).filter (tied functions key a)
  simp only [List.filter_filter, Bool.and_self] at kept
  exact (kept.eq_of_length (sorts.perm.filter _).length_eq.symm).symm

theorem arrangedOnce {out out' : List Value} (exact : ∀ v ∈ out, Exact functions key v) (perm : out.Perm out')
    (ordered : out.Pairwise (InOrder functions key)) (ordered' : out'.Pairwise (InOrder functions key))
    (alike : ∀ a ∈ out, out.filter (tied functions key a) = out'.filter (tied functions key a)) : out = out' := by
  induction out generalizing out' with
  | nil => exact perm.nil_eq
  | cons x xs ih =>
    cases out' with
    | nil => exact absurd perm.length_eq (Nat.succ_ne_zero _)
    | cons y ys =>
      obtain ⟨below, rest⟩ := List.pairwise_cons.mp ordered
      obtain ⟨below', rest'⟩ := List.pairwise_cons.mp ordered'
      -- heads that differ would tie, and ties stand alike on both sides
      obtain rfl : x = y := by
        by_contra apart
        have there : y ∈ xs := (List.mem_cons.mp (perm.mem_iff.mpr List.mem_cons_self)).resolve_left (Ne.symm apart)
        have back : x ∈ ys := (List.mem_cons.mp (perm.mem_iff.mp List.mem_cons_self)).resolve_left apart
        have ties := inOrderBoth (below y there) (below' x back)
        have exactX := exact x List.mem_cons_self
        have self := tiedTrans exactX (exact y (List.mem_cons_of_mem x there)) exactX ties (tiedSymm ties)
        have same := alike x List.mem_cons_self
        rw [List.filter_cons_of_pos self, List.filter_cons_of_pos ties] at same
        exact apart (List.cons.inj same).1
      rw [ih (fun v inside => exact v (List.mem_cons_of_mem x inside)) perm.cons_inv rest rest' fun a inside => ?_]
      have same := alike a (List.mem_cons_of_mem x inside)
      rw [List.filter_cons, List.filter_cons] at same
      split at same
      · exact (List.cons.inj same).2
      · exact same

theorem Sorts.unique {items out out' : List Value} (sorts : Sorts functions key items out)
    (other : Sorts functions key items out') (exact : ∀ v ∈ items, Exact functions key v) : out' = out := by
  refine arrangedOnce (fun v inside => exact v (other.perm.mem_iff.mp inside)) (other.perm.trans sorts.perm.symm)
    other.ordered sorts.ordered fun a inside => ?_
  have there := other.perm.mem_iff.mp inside
  rw [other.filtered exact there, sorts.filtered exact there]

section Twice

variable {later earlier : List KeyFunction}

theorem tiedAppend : tied (later ++ earlier) key a b = (tied later key a b && tied earlier key a b) := List.all_append

theorem differBefore {result : KeyFunction → Option Ordering} (apart : Differ later key result a b) :
    Differ (later ++ earlier) key result a b := by
  obtain ⟨before, f, after, rfl, ties, known⟩ := apart
  exact ⟨before, f, after ++ earlier, by simp, ties, known⟩

theorem differAfter {result : KeyFunction → Option Ordering} (ties : tied later key a b = true)
    (apart : Differ earlier key result a b) : Differ (later ++ earlier) key result a b := by
  obtain ⟨before, f, after, rfl, ties', known⟩ := apart
  exact ⟨later ++ before, f, after, (List.append_assoc later before (f :: after)).symm,
    tiedAppend.trans (by rw [ties, ties']; rfl), known⟩

theorem Sorts.again {items mid out : List Value} (first : Sorts earlier key items mid) (second : Sorts later key mid out)
    (exact : ∀ v ∈ items, Exact later key v) : Sorts (later ++ earlier) key items out := by
  -- Sorting a sorted list again keeps the earlier order where the later keys tie.
  refine ⟨second.perm.trans first.perm, List.pairwise_iff_forall_sublist.mpr fun {a b} pair => ?_,
    fun ties within alike => ?_⟩
  · rcases List.pairwise_iff_forall_sublist.mp second.ordered pair with ties | before
    · have inside : a ∈ mid := second.perm.mem_iff.mp (pair.subset List.mem_cons_self)
      have exact' : ∀ v ∈ mid, Exact later key v := fun v there => exact v (first.perm.mem_iff.mp there)
      have inside' : b ∈ mid := second.perm.mem_iff.mp (pair.subset (List.mem_cons_of_mem a (List.mem_singleton_self b)))
      have self := tiedTrans (exact' a inside) (exact' b inside') (exact' a inside) ties (tiedSymm ties)
      have kept := pair.filter (tied later key a)
      rw [List.filter_cons_of_pos self, List.filter_cons_of_pos ties, List.filter_nil,
        second.filtered exact' inside] at kept
      rcases List.pairwise_iff_forall_sublist.mp first.ordered (kept.trans List.filter_sublist) with ties' | before
      · exact .inl (tiedAppend.trans (by rw [ties, ties']; rfl))
      · exact .inr (differAfter ties before)
    · exact .inr (differBefore before)
  · have both := alike.imp fun known => (Bool.and_eq_true_iff.mp (tiedAppend.symm.trans known))
    exact second.stable ties (first.stable ties within (both.imp And.right)) (both.imp And.left)

end Twice

section Choice

def contrast (functions : List KeyFunction) (key : KeyFunction → Value → Value) (items : List Value)
    (i j : Fin items.length) : Option Ordering := (order functions key items[i] items[j]).toOption

variable {items : List Value} {i j : Fin items.length}

theorem contrastNone : contrast functions key items i j = none ↔ Clash functions key items[i] items[j] := by
  rw [← orderClash, contrast]
  cases order functions key items[i] items[j] with
  | ok o => simp [Except.toOption]
  | error e => simp [Except.toOption]

theorem contrastSome {o : Ordering} :
    contrast functions key items i j = some o ↔ order functions key items[i] items[j] = .ok o := by
  rw [contrast]
  cases order functions key items[i] items[j] with
  | ok o => simp [Except.toOption]
  | error e => simp [Except.toOption]

def Clashing (functions : List KeyFunction) (key : KeyFunction → Value → Value) (items : List Value) : Prop :=
  ∃ i j : Fin items.length, i ≠ j ∧ Clash functions key items[i] items[j]

def Stops (functions : List KeyFunction) (key : KeyFunction → Value → Value) (items : List Value) : Prop :=
  (Sorter.sort (List.finRange items.length)).result (Sorter.guess (contrast functions key items)) = none

theorem sortRuns (evaluates : ∀ v ∈ items, ∀ f ∈ functions, f.function.call [v] = .ok (key f v)) :
    let t := Sorter.sort (List.finRange items.length)
    let cmp := Sorter.guess (contrast functions key items)
    sort functions items = (t.result cmp).elim (.error .brokenOrder) fun places =>
      (Sorter.failure (fun i j : Fin items.length => order functions key items[i] items[j]) (t.pairs cmp)).elim
        (.ok (places.map items.get)) .error := by
  intro t cmp
  have arranged : sort functions items = arrange functions (items.map (keyed functions key)).get := by
    rw [sort, keysAll evaluates]
    rfl
  have size : items.length = (items.map (keyed functions key)).length := by rw [List.length_map]
  have same : (fun i : Fin items.length => (items.map (keyed functions key)).get (i.cast size)) =
      fun i => keyed functions key items[i] := by
    funext i
    simp
  have run : arrange functions (fun i : Fin items.length => keyed functions key items[i]) = do
      return (← t.run (fun i j => order functions key items[i] items[j]) .brokenOrder none).map items.get := rfl
  have ran : t.run (fun i j => order functions key items[i] items[j]) .brokenOrder none =
      (t.result cmp).elim (.error .brokenOrder) fun places =>
        (none.or (Sorter.failure (fun i j => order functions key items[i] items[j]) (t.pairs cmp))).elim
          (.ok places) .error := Sorter.runResult
  rw [arranged, arrangeCast size, same, run, ran]
  cases t.result cmp with
  | none => rfl
  | some places =>
    simp only [Option.elim_some, Option.none_or]
    cases Sorter.failure (fun i j => order functions key items[i] items[j]) (t.pairs cmp) with
    | none => rfl
    | some e => rfl

variable (exact : ∀ v ∈ items, Exact functions key v)

include exact

theorem contrastPartial : Sorter.Partial (contrast functions key items) where
  swap i j := by
    cases known : contrast functions key items i j with
    | none => exact contrastNone.mpr (clashSymm (contrastNone.mp known))
    | some o => exact contrastSome.mpr (orderSwap (contrastSome.mp known))
  through i j k o p first second le le' := contrastSome.mpr <|
    orderThen (exact _ (List.getElem_mem i.isLt)) (exact _ (List.getElem_mem j.isLt))
      (exact _ (List.getElem_mem k.isLt)) (contrastSome.mp first) (contrastSome.mp second) le le'

theorem calmTrans (calm : ¬ Clashing functions key items) :
    Std.TransCmp (Sorter.guess (contrast functions key items)) :=
  Sorter.guessTrans (contrastPartial exact) fun i j apart lacks => calm ⟨i, j, apart, contrastNone.mp lacks⟩

theorem anySorts {places : List (Fin items.length)} (calm : ¬ Clashing functions key items)
    (arranged : Sorter.Arranged (Sorter.Precedes (Sorter.guess (contrast functions key items)))
      (List.finRange items.length) places) : Sorts functions key items (places.map items.get) := by
  have full : ∀ i j, i ≠ j → contrast functions key items i j ≠ none := fun i j apart lacks =>
    calm ⟨i, j, apart, contrastNone.mp lacks⟩
  -- a guess is only ever equality, so anything else was known
  have guessed {i j : Fin items.length} {o : Ordering} (same : Sorter.guess (contrast functions key items) i j = o)
      (apart : contrast functions key items i j ≠ none ∨ o ≠ .eq) : contrast functions key items i j = some o := by
    rw [Sorter.guess] at same
    cases lacks : contrast functions key items i j with
    | some p =>
      rw [lacks] at same
      exact congrArg some same
    | none =>
      rw [lacks] at same
      exact (apart.elim (absurd lacks) (absurd same.symm))
  refine ⟨?_, List.pairwise_map.mpr (arranged.ordered.imp ?_), fun ties within alike => ?_⟩
  · have whole := arranged.perm.map items.get
    rwa [List.map_get_finRange] at whole
  · rintro i j (less | ⟨equal, before⟩)
    · exact .inr (orderAhead.mp (contrastSome.mp (guessed less (.inr (by decide)))))
    · exact .inl (orderTied.mp (contrastSome.mp (guessed equal (.inl (full i j (Fin.ne_of_lt before))))))
  · obtain ⟨places', rfl, increasing⟩ := List.sublist_eq_map_getElem within
    refine (arranged.keeps (calmTrans exact calm)
      (((List.pairwise_map.mp alike).and increasing).imp ?_)).map items.get
    rintro i j ⟨ties, before⟩
    refine .inr ⟨?_, before⟩
    rw [Sorter.guess, contrastSome.mpr (orderTied.mpr ties)]
    rfl

theorem stopsClashing (stops : Stops functions key items) : Clashing functions key items := by
  by_contra calm
  obtain ⟨places, left, -⟩ := Sorter.sortStable.arranges _ (calmTrans exact calm)
  exact Option.some_ne_none places (left.symm.trans stops)

theorem meetsClash {t : Sorter (Fin items.length) (List (Fin items.length))} (stable : t.Stable) :
    (∃ pair ∈ t.pairs (Sorter.guess (contrast functions key items)),
      Clash functions key items[pair.1] items[pair.2]) ↔ Clashing functions key items := by
  have met := Sorter.meets (contrastPartial exact) stable
  simp only [contrastNone] at met
  exact met

end Choice

section Outcome

variable {items : List Value} (evaluates : ∀ v ∈ items, ∀ f ∈ functions, f.function.call [v] = .ok (key f v))
  (exact : ∀ v ∈ items, Exact functions key v)

include evaluates exact

theorem sortCalm (calm : ¬ Clashing functions key items) :
    ∃ out, sort functions items = .ok out ∧ Sorts functions key items out := by
  obtain ⟨places, left, arranged⟩ := Sorter.sortStable.arranges _ (calmTrans exact calm)
  have unmet := mt (meetsClash exact Sorter.sortStable).mp calm
  simp only [← contrastNone] at unmet
  refine ⟨places.map items.get, (sortRuns evaluates).trans ?_, anySorts exact calm arranged⟩
  rw [left, Option.elim_some, Sorter.failureNone.mpr unmet]
  rfl

theorem sortClashes (clashing : Clashing functions key items) (goesOn : ¬ Stops functions key items) :
    ∃ e, sort functions items = .error e ∧ Unordered functions key items e := by
  obtain ⟨places, left⟩ := Option.ne_none_iff_exists'.mp goesOn
  have met := (meetsClash exact Sorter.sortStable).mpr clashing
  simp only [← contrastNone] at met
  have fails : Sorter.failure (fun i j : Fin items.length => order functions key items[i] items[j]) _ ≠ none :=
    mt Sorter.failureNone.mp (not_not_intro met)
  obtain ⟨e, found⟩ := Option.ne_none_iff_exists'.mp fails
  obtain ⟨pair, -, failed⟩ := Sorter.failureFound found
  refine ⟨e, (sortRuns evaluates).trans ?_, orderUnordered failed (List.getElem_mem _) (List.getElem_mem _)⟩
  rw [left, Option.elim_some, found]
  rfl

omit exact in
theorem sortStops (stops : Stops functions key items) : sort functions items = .error .brokenOrder :=
  (sortRuns evaluates).trans (congrArg (Option.elim · _ _) stops)

theorem sortBroken : sort functions items = .error .brokenOrder ↔ Stops functions key items := by
  refine ⟨fun broken => ?_, sortStops evaluates⟩
  by_contra goesOn
  by_cases clashing : Clashing functions key items
  · obtain ⟨e, failed, f, -, a, -, b, -, -, rfl⟩ := sortClashes evaluates exact clashing goesOn
    cases broken.symm.trans failed
  · obtain ⟨out, sorted, -⟩ := sortCalm evaluates exact clashing
    cases broken.symm.trans sorted

theorem sortUnordered : (∃ e, sort functions items = .error e ∧ Unordered functions key items e) ↔
    Clashing functions key items ∧ ¬ Stops functions key items := by
  refine ⟨fun ⟨e, failed, unordered⟩ => ⟨?_, fun stops => ?_⟩, fun ⟨clashing, goesOn⟩ =>
    sortClashes evaluates exact clashing goesOn⟩
  · by_contra calm
    obtain ⟨out, sorted, -⟩ := sortCalm evaluates exact calm
    cases failed.symm.trans sorted
  · obtain ⟨f, -, a, -, b, -, -, rfl⟩ := unordered
    cases failed.symm.trans (sortStops evaluates stops)

theorem sortSorts {out : List Value} (sorted : sort functions items = .ok out) : Sorts functions key items out := by
  have calm : ¬ Clashing functions key items := fun clashing => by
    by_cases stops : Stops functions key items
    · cases sorted.symm.trans (sortStops evaluates stops)
    · obtain ⟨e, failed, -⟩ := sortClashes evaluates exact clashing stops
      cases sorted.symm.trans failed
  obtain ⟨out', sorted', sorts⟩ := sortCalm evaluates exact calm
  cases sorted.symm.trans sorted'
  exact sorts

end Outcome

deriving instance DecidableEq for Lambda
deriving instance DecidableEq for Closed
deriving instance DecidableEq for KeyFunction
deriving instance DecidableEq for Supply

def keyFunction (item : Expr) (k : SortKey) : Build KeyFunction := return ⟨← functionOf item k.key, k.descending⟩

/-- Whether order keys become functions that give every item its keys, none of them a floating-point number. -/
structure KeyedBy (item : Expr) (keys : List SortKey) (functions : List KeyFunction)
    (key : KeyFunction → Value → Value) (items : List Value) (start last : Supply) : Prop where
  made : (keys.mapM (keyFunction item)).run start = (.ok functions, last)
  evaluates : ∀ v ∈ items, ∀ f ∈ functions, f.function.call [v] = .ok (key f v)
  exact : ∀ v ∈ items, Exact functions key v

theorem KeyedBy.runs {item : Expr} {keys : List SortKey} {items : List Value} {start last : Supply}
    (given : KeyedBy item keys functions key items start last) (items' : List Value) :
    (runClause item (.sort keys) items').run start = (sort functions items', last) := by
  have clause : runClause item (.sort keys) items' = keys.mapM (keyFunction item) >>= fun functions =>
    liftM (sort functions items') := rfl
  rw [clause, Build.runThen given.made]
  cases sort functions items' <;> rfl

theorem stopsLong {items : List Value} (stops : Stops functions key items) : 20 < items.length := by
  by_contra short
  have inserts : Sorter.sort (List.finRange items.length) = Sorter.insertAll [] (List.finRange items.length) :=
    if_pos (by rw [List.length_finRange]; omega)
  have ended : (Sorter.insertAll [] (List.finRange items.length)).result (Sorter.guess (contrast functions key items)) ≠
      none := Sorter.insertAllSteady.ends
  rw [← inserts] at ended
  exact ended stops

/-- Items are sorted by their keys, unless two of them clash: this is the one list that has them in order and ties as
they stood. Sorted again by other keys, they are in the order of these first. Where two items clash, the sort fails for
it or stops, and up to twenty items are too few to stop. No stable sort, whatever pairs it chooses to compare, misses a
clash or arranges the items otherwise. -/
theorem sortsByKeys {item : Expr} {keys : List SortKey} {items : List Value} {start last : Supply}
    (given : KeyedBy item keys functions key items start last) :
    let clashing := Clashing functions key items
    let stops := Stops functions key items
    let outcome := (runClause item (.sort keys) items).run start
    ((∃ e, outcome = (.error e, last) ∧ Unordered functions key items e) ↔ clashing ∧ ¬ stops) ∧
    (outcome = (.error .brokenOrder, last) ↔ stops) ∧ (stops → clashing ∧ 20 < items.length) ∧
    (¬ clashing → ∃ out, outcome = (.ok out, last) ∧ Sorts functions key items out ∧
      (∀ out', Sorts functions key items out' → out' = out) ∧
      ∀ later functions' last' out', KeyedBy item later functions' key items last last' →
        (runClause item (.sort later) out).run last = (.ok out', last') →
        Sorts (functions' ++ functions) key items out') ∧
    ∀ t : Sorter (Fin items.length) (List (Fin items.length)), t.Stable →
      ((∃ pair ∈ t.pairs (Sorter.guess (contrast functions key items)),
        Clash functions key items[pair.1] items[pair.2]) ↔ clashing) ∧
      (¬ clashing → ∃ places, t.result (Sorter.guess (contrast functions key items)) = some places ∧
        outcome.1 = .ok (places.map items.get)) := by
  intro clashing stops outcome
  have run : outcome = (sort functions items, last) := given.runs items
  have ends (result : Except QueryError (List Value)) : outcome = (result, last) ↔ sort functions items = result := by
    rw [run, Prod.mk.injEq, and_iff_left rfl]
  simp only [ends]
  refine ⟨sortUnordered given.evaluates given.exact, sortBroken given.evaluates given.exact,
    fun stops => ⟨stopsClashing given.exact stops, stopsLong stops⟩, fun calm => ?_, fun t stable =>
      ⟨meetsClash given.exact stable, fun calm => ?_⟩⟩
  · obtain ⟨out, sorted, sorts⟩ := sortCalm given.evaluates given.exact calm
    refine ⟨out, sorted, sorts, fun out' other => sorts.unique other given.exact, ?_⟩
    intro later functions' last' out' given' again
    have inside : ∀ v ∈ out, v ∈ items := fun v there => sorts.perm.mem_iff.mp there
    have sorted' : sort functions' out = .ok out' := congrArg Prod.fst ((given'.runs out).symm.trans again)
    have sorts' : Sorts functions' key out out' := sortSorts (fun v there => given'.evaluates v (inside v there))
      (fun v there => given'.exact v (inside v there)) sorted'
    exact sorts.again sorts' given'.exact
  · obtain ⟨out, sorted, sorts⟩ := sortCalm given.evaluates given.exact calm
    obtain ⟨places, left, arranged⟩ := stable.arranges _ (calmTrans given.exact calm)
    refine ⟨places, left, ?_⟩
    rw [sorts.unique (anySorts given.exact calm arranged) given.exact, ← sorted]
    exact congrArg Prod.fst run

theorem keyedByThemselves {items : List Value} (whole : ∀ v ∈ items, ∀ x, v ≠ .float x) :
    let item := Expr.reference 0 ⟨0, "x", .any⟩
    let p : Param := ⟨0, "input", .any⟩
    KeyedBy item [⟨item, false⟩] [⟨⟨⟨[p], .parameter 1 p⟩, rfl⟩, false⟩] (fun _ v => v) items ⟨1, 0, 1⟩ ⟨2, 1, 1⟩ := by
  intro item p
  refine ⟨?_, fun v _ f here => ?_, fun v inside _ _ => whole v inside⟩
  · change (_ : Except QueryError (List KeyFunction) × Supply) = _
    decide +kernel
  · obtain rfl := List.mem_singleton.mp here
    rfl

/- Two items clash though each of them compares with the one between them. -/
theorem sortsByKeysOfMixed :
    let item := Expr.reference 0 ⟨0, "x", .any⟩
    let p : Param := ⟨0, "input", .any⟩
    let functions : List KeyFunction := [⟨⟨⟨[p], .parameter 1 p⟩, rfl⟩, false⟩]
    let key (_ : KeyFunction) (v : Value) : Value := v
    let items : List Value := [.integer 1, .null, .string "a"]
    KeyedBy item [⟨item, false⟩] functions key items ⟨1, 0, 1⟩ ⟨2, 1, 1⟩ ∧
      (∃ e, (runClause item (.sort [⟨item, false⟩]) items).run ⟨1, 0, 1⟩ = (.error e, ⟨2, 1, 1⟩) ∧
        Unordered functions key items e) ∧
      ∃ places ∈ (Sorter.sort (List.finRange 3)).pairs (Sorter.guess (contrast functions key items)),
        Clash functions key items[places.1] items[places.2] := by
  intro item p functions key items
  have given : KeyedBy item [⟨item, false⟩] functions key items ⟨1, 0, 1⟩ ⟨2, 1, 1⟩ :=
    keyedByThemselves (by simp [items])
  have clashing : Clashing functions key items :=
    ⟨⟨0, by decide⟩, ⟨2, by decide⟩, by decide, [], _, [], rfl, rfl, by decide +kernel⟩
  have goesOn : ¬ Stops functions key items := fun stops => absurd (stopsLong stops) (by decide)
  exact ⟨given, (sortsByKeys given).1.mpr ⟨clashing, goesOn⟩,
    ((sortsByKeys given).2.2.2.2 _ Sorter.sortStable).1.mpr clashing⟩

/- A string among descending numbers. What was told of it leaves no place where the two ends of a merge could meet. -/
theorem sortStopsOfMixed :
    let item := Expr.reference 0 ⟨0, "x", .any⟩
    let p : Param := ⟨0, "input", .any⟩
    let functions : List KeyFunction := [⟨⟨⟨[p], .parameter 1 p⟩, rfl⟩, false⟩]
    let key (_ : KeyFunction) (v : Value) : Value := v
    let items : List Value := [21, 20, 19, 18, 17, 16, 15, 14, 13, 12].map .integer ++
      .string "a" :: [10, 9, 8, 7, 6, 5, 4, 3, 2, 1].map .integer
    let outcome := (runClause item (.sort [⟨item, false⟩]) items).run ⟨1, 0, 1⟩
    KeyedBy item [⟨item, false⟩] functions key items ⟨1, 0, 1⟩ ⟨2, 1, 1⟩ ∧ Clashing functions key items ∧
      outcome = (.error .brokenOrder, ⟨2, 1, 1⟩) ∧ ¬ ∃ e, outcome.1 = .error e ∧ Unordered functions key items e := by
  intro item p functions key items outcome
  have given : KeyedBy item [⟨item, false⟩] functions key items ⟨1, 0, 1⟩ ⟨2, 1, 1⟩ :=
    keyedByThemselves (by simp [items])
  have broken : sort functions items = .error .brokenOrder := by decide +kernel
  have stops : outcome = (.error .brokenOrder, ⟨2, 1, 1⟩) := by
    rw [← broken]
    exact given.runs items
  refine ⟨given, ⟨⟨0, by decide⟩, ⟨10, by decide⟩, by decide, [], _, [], rfl, rfl, by decide +kernel⟩,
    stops, ?_⟩
  rintro ⟨e, failed, f, -, a, -, b, -, -, rfl⟩
  cases (congrArg Prod.fst stops).symm.trans failed

end SymbolicQuery.Query
