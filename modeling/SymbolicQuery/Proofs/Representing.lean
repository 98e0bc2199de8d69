import SymbolicQuery.Proofs.Naming
import SymbolicQuery.Proofs.Operating

/-! Values without repeats, and groups. Of every key the first value stays, in the order in which the keys were met, and
a group has the elements that came with its key, in the order in which they came. -/
namespace SymbolicQuery
open Results

namespace Value

variable {u v w : Value} {vs kept : List Value} {pairs : List (Value × Value)}

/-- Values that stand for others: of every key the first one, in the order in which the keys were met. -/
structure Represents (kept vs : List Value) : Prop where
  among : kept.Sublist vs
  different : kept.Pairwise fun a b => a.sameKey b = false ∧ b.sameKey a = false
  first : ∀ w ∈ kept, vs.find? (·.sameKey w) = some w
  ordered : kept.Pairwise fun a b => vs.findIdx (·.sameKey a) < vs.findIdx (·.sameKey b)
  one : ∀ v ∈ vs, ∃ w, kept.filter (·.sameKey v) = [w]

theorem distinctSnoc : distinct (vs ++ [v]) = if vs.any (·.sameKey v) then distinct vs else distinct vs ++ [v] := by
  induction vs with
  | nil => rfl
  | cons u vs ih =>
    rw [List.cons_append, distinct, ih, List.any_cons, distinct]
    by_cases later : vs.any (·.sameKey v) = true
    · rw [if_pos later, later, Bool.or_true, if_pos rfl]
    · rw [if_neg later, Bool.eq_false_iff.mpr later, Bool.or_false, List.filter_append]
      by_cases here : u.sameKey v = true <;> simp [here]

theorem foundBefore (found : vs.find? (·.sameKey w) = some w) (v : Value) :
    (vs ++ [v]).find? (·.sameKey w) = some w ∧
      (vs ++ [v]).findIdx (·.sameKey w) = vs.findIdx (·.sameKey w) ∧ vs.findIdx (·.sameKey w) < vs.length := by
  have self : w.sameKey w = true := List.find?_some (p := fun v : Value => v.sameKey w) found
  have inside : vs.findIdx (·.sameKey w) < vs.length :=
    List.findIdx_lt_length_of_exists ⟨w, List.mem_of_find?_eq_some found, self⟩
  refine ⟨?_, ?_, inside⟩
  · rw [List.find?_append, found, Option.some_or]
  · rw [List.findIdx_append, if_pos inside]

theorem Represents.staysOrdered (represents : Represents kept vs) (v : Value) :
    kept.Pairwise fun a b => (vs ++ [v]).findIdx (·.sameKey a) < (vs ++ [v]).findIdx (·.sameKey b) := by
  refine represents.ordered.imp_of_mem fun {a b} left right before => ?_
  rw [(foundBefore (represents.first a left) v).2.1, (foundBefore (represents.first b right) v).2.1]
  exact before

theorem representsNothing : Represents [] [] where
  among := .slnil
  different := .nil
  first := nofun
  ordered := .nil
  one := nofun

theorem Represents.known (represents : Represents kept vs) (left : u.apart = true) (right : v.apart = true)
    (inside : u ∈ vs) (same : u.sameKey v = true) : Represents kept (vs ++ [v]) where
  among := represents.among.trans (List.sublist_append_left vs [v])
  different := represents.different
  first w there := (foundBefore (represents.first w there) v).1
  ordered := represents.staysOrdered v
  one v' there := by
    rcases List.mem_append.mp there with old | new
    · exact represents.one v' old
    · obtain ⟨w, only⟩ := represents.one u inside
      refine ⟨w, (List.filter_congr fun x _ => ?_).trans only⟩
      rw [List.mem_singleton.mp new, Bool.eq_iff_iff]
      exact ⟨fun alike => sameKeyTrans alike (sameKeySymm left right same), fun alike => sameKeyTrans alike same⟩

theorem Represents.fresh (represents : Represents kept vs) (apart : ∀ u ∈ vs, u.apart = true)
    (right : v.apart = true) (new : ∀ u ∈ vs, u.sameKey v = false) : Represents (kept ++ [v]) (vs ++ [v]) := by
  have other (u : Value) (inside : u ∈ vs) : v.sameKey u = false := Bool.eq_false_iff.mpr fun same =>
    Bool.eq_false_iff.mp (new u inside) (sameKeySymm right (apart u inside) same)
  have self : v.sameKey v = true := sameKeySelf right
  have inside (w : Value) (there : w ∈ kept) : w ∈ vs := represents.among.subset there
  have unmet : kept.filter (·.sameKey v) = [] := List.filter_eq_nil_iff.mpr fun w there =>
    Bool.eq_false_iff.mp (new w (inside w there))
  have last : vs.findIdx (·.sameKey v) = vs.length := List.findIdx_eq_length.mpr new
  refine ⟨represents.among.append (.refl [v]), ?_, fun w there => ?_, ?_, fun v' there => ?_⟩
  · refine List.pairwise_append.mpr ⟨represents.different, List.pairwise_singleton _ _, fun w there x only => ?_⟩
    rw [List.mem_singleton.mp only]
    exact ⟨new w (inside w there), other w (inside w there)⟩
  · rcases List.mem_append.mp there with old | only
    · exact (foundBefore (represents.first w old) v).1
    · rw [List.mem_singleton.mp only, List.find?_append, List.find?_eq_none.mpr fun u there =>
        Bool.eq_false_iff.mp (new u there), Option.none_or, List.find?_cons, self]
  · refine List.pairwise_append.mpr
      ⟨represents.staysOrdered v, List.pairwise_singleton _ _, fun w there x only => ?_⟩
    obtain ⟨-, stays, early⟩ := foundBefore (represents.first w there) v
    rw [List.mem_singleton.mp only, stays, List.findIdx_append, last, if_neg (Nat.lt_irrefl _)]
    exact Nat.lt_of_lt_of_le early (Nat.le_add_left _ _)
  · rw [List.filter_append]
    rcases List.mem_append.mp there with old | only
    · obtain ⟨w, one⟩ := represents.one v' old
      exact ⟨w, by rw [one, List.filter_cons_of_neg (by simp [other v' old])]; rfl⟩
    · rw [List.mem_singleton.mp only, unmet]
      exact ⟨v, by rw [List.filter_cons, if_pos self]; rfl⟩

theorem distinctRepresents (apart : ∀ v ∈ vs, v.apart = true) : Represents (distinct vs) vs := by
  induction vs using List.reverseRecOn with
  | nil => exact representsNothing
  | append_singleton vs v ih =>
    obtain ⟨before, last⟩ := List.forall_mem_append.mp apart
    have right := last v (List.mem_singleton_self v)
    rw [distinctSnoc]
    split
    · rename_i met
      obtain ⟨u, inside, same⟩ := List.any_eq_true.mp met
      exact (ih before).known (before u inside) right inside same
    · rename_i unmet
      exact (ih before).fresh before right (by simpa using unmet)

theorem distinctAgain (different : vs.Pairwise fun a b => a.sameKey b = false) : distinct vs = vs := by
  induction different with
  | nil => rfl
  | cons fresh _ ih => rw [distinct, ih, List.filter_eq_self.mpr fun w inside => by rw [fresh w inside]; rfl]

def gathered (pairs : List (Value × Value)) (key : Value) : List Value :=
  (pairs.filter (key.sameKey ·.1)).map (·.2)

theorem gatheredSnoc {key e : Value} : gathered (pairs ++ [(v, e)]) key =
    if key.sameKey v then gathered pairs key ++ [e] else gathered pairs key := by
  unfold gathered
  rw [List.filter_append, List.map_append]
  by_cases same : key.sameKey v = true <;> simp [same]

theorem addToGroupOld {es : Value → List Value} {key e : Value} (one : ∃ w, kept.filter (·.sameKey key) = [w]) :
    addToGroup (kept.map fun k => (k, es k)) key e =
      kept.map fun k => (k, if k.sameKey key then es k ++ [e] else es k) := by
  obtain ⟨w, one⟩ := one
  induction kept with
  | nil => cases one
  | cons k kept ih =>
    rw [List.map_cons, List.map_cons, addToGroup]
    by_cases same : k.sameKey key = true
    · rw [List.filter_cons, if_pos same] at one
      have unmet := List.filter_eq_nil_iff.mp (List.cons.inj one).2
      have rest : kept.map (fun k => (k, if k.sameKey key then es k ++ [e] else es k)) = kept.map fun k => (k, es k) :=
        List.map_congr_left fun k inside => by rw [if_neg (unmet k inside)]
      rw [if_pos same, if_pos same, rest]
    · rw [List.filter_cons, if_neg same] at one
      rw [if_neg same, if_neg same, ih one]

theorem addToGroupNew {groups : List Group} {key e : Value} (new : ∀ g ∈ groups, g.1.sameKey key = false) :
    addToGroup groups key e = groups ++ [(key, [e])] := by
  induction groups with
  | nil => rfl
  | cons g groups ih =>
    obtain ⟨here, later⟩ := List.forall_mem_cons.mp new
    rw [addToGroup, here, ih later]
    rfl

theorem groupGathers (apart : ∀ p ∈ pairs, p.1.apart = true) :
    group pairs = (distinct (pairs.map (·.1))).map fun k => (k, gathered pairs k) := by
  induction pairs using List.reverseRecOn with
  | nil => rfl
  | append_singleton pairs p ih =>
    obtain ⟨key, e⟩ := p
    obtain ⟨before, last⟩ := List.forall_mem_append.mp apart
    have right : key.apart = true := last (key, e) (List.mem_singleton_self _)
    have before' : ∀ v ∈ pairs.map (·.1), v.apart = true := List.forall_mem_map.mpr before
    have step : group (pairs ++ [(key, e)]) = addToGroup (group pairs) key e := List.foldl_append
    rw [step, ih before, List.map_append, List.map_singleton, distinctSnoc]
    simp only [gatheredSnoc]
    -- the last key joins the group of the value that stands for it, or opens one behind the others
    split
    · rename_i met
      obtain ⟨u, inside, same⟩ := List.any_eq_true.mp met
      refine addToGroupOld (((distinctRepresents before').known (before' u inside) right inside same).one key ?_)
      exact List.mem_append_right _ (List.mem_singleton_self key)
    · rename_i unmet
      have new : ∀ v ∈ pairs.map (·.1), v.sameKey key = false := by simpa using unmet
      have new' (k : Value) (inside : k ∈ distinct (pairs.map (·.1))) : k.sameKey key = false :=
        new k ((distinctSublist _).subset inside)
      have alone : gathered pairs key = [] := by
        refine List.map_eq_nil_iff.mpr (List.filter_eq_nil_iff.mpr fun p inside same => ?_)
        have back := sameKeySymm right (before p inside) same
        exact Bool.eq_false_iff.mp (new p.1 (List.mem_map_of_mem inside)) back
      rw [addToGroupNew (List.forall_mem_map.mpr new'), List.map_append, List.map_singleton, if_pos (sameKeySelf right),
        alone]
      congr 1
      exact List.map_congr_left fun k inside => by rw [new' k inside]; rfl

theorem underKeys {e : Value} : kept.flatMap (fun k => if k.sameKey v then [e] else []) =
    (kept.filter (·.sameKey v)).map fun _ => e := by
  induction kept with
  | nil => rfl
  | cons k kept ih =>
    rw [List.flatMap_cons, List.filter_cons, ih]
    by_cases same : k.sameKey v = true <;> simp [same]

theorem gatheredPerm (one : ∀ p ∈ pairs, ∃ w, kept.filter (·.sameKey p.1) = [w]) :
    (kept.flatMap (gathered pairs)).Perm (pairs.map (·.2)) := by
  induction pairs with
  | nil =>
    have none : gathered [] = fun _ => [] := rfl
    rw [none]
    simp
  | cons p pairs ih =>
    obtain ⟨⟨w, here⟩, later⟩ := List.forall_mem_cons.mp one
    have split : gathered (p :: pairs) = fun k => (if k.sameKey p.1 then [p.2] else []) ++ gathered pairs k := by
      funext k
      by_cases same : k.sameKey p.1 = true <;> simp [gathered, same]
    rw [split]
    refine (List.flatMap_append_perm kept _ _).symm.trans ?_
    rw [underKeys, here]
    exact (ih later).cons p.2

end Value

def Rows.Gives (rows : Rows) (e : Expr) (vs : List Value) : Prop :=
  ∃ f, Query.FunctionFrom rows.shape.item e f ∧ List.Forall₂ (fun v w => f.call [v] = .ok w) rows.items vs

theorem Rows.Gives.apart {rows : Rows} {e : Expr} {vs : List Value} (gives : rows.Gives e vs)
    (names : e.Every Expr.NamesApart) (apart : ∀ v ∈ rows.items, v.apart = true) : ∀ w ∈ vs, w.apart = true := by
  obtain ⟨f, given, along⟩ := gives
  intro w inside
  obtain ⟨v, there, called⟩ := Expr.partFrom along inside
  exact given.apart names (apart v there) called

theorem Rows.Gives.length {rows : Rows} {e : Expr} {vs : List Value} (gives : rows.Gives e vs) :
    vs.length = rows.items.length := by
  obtain ⟨f, -, along⟩ := gives
  exact along.length_eq.symm

namespace ResultOperator

variable {name : String} {id : Nat} {key element : Expr} {rows : Rows} {input grouped : Output}
  {start last : Supply} {items kept : List Value}

def LeavesDistinct (items kept : List Value) : Prop :=
  ∀ rows : Rows, rows.items = items → ∀ s : Supply, ∃ out : Rows,
    (distinct.run (.rows rows)).run s = (.ok (.rows out), s) ∧ out.shape = rows.shape ∧ out.items = kept

theorem leavesDistinct : LeavesDistinct items (Value.distinct items) := by
  rintro rows rfl s
  exact ⟨rows.keep (Value.distinct rows.items) (Value.distinctSublist rows.items), rfl, rfl, rfl⟩

theorem groupGives {groups : List Group} (made : yields (groupRows rows key element) groups) :
    ∃ keys elements, rows.Gives key keys ∧ rows.Gives element elements ∧
      groups = Value.group (keys.zip elements) := by
  obtain ⟨_, -, made⟩ := ofBind made
  obtain ⟨kl, keyMade, made⟩ := ofBind made
  obtain ⟨kf, keyCloses, made⟩ := ofBind made
  obtain ⟨el, elementMade, made⟩ := ofBind made
  obtain ⟨ef, elementCloses, made⟩ := ofBind made
  obtain ⟨pairs, along, last⟩ := ofBind made
  have each : List.Forall₂ (fun v p => kf.call [v] = .ok p.1 ∧ ef.call [v] = .ok p.2) rows.items pairs := by
    refine (ofMapM along).imp fun v p given => ?_
    obtain ⟨k, keyCalled, given⟩ := ofBind given
    obtain ⟨e, elementCalled, given⟩ := ofBind given
    cases ofPure given
    exact ⟨ofExcept keyCalled, ofExcept elementCalled⟩
  refine ⟨pairs.map (·.1), pairs.map (·.2), ⟨kf, ⟨kl, keyMade, ofExcept keyCloses⟩, ?_⟩,
    ⟨ef, ⟨el, elementMade, ofExcept elementCloses⟩, ?_⟩, ?_⟩
  · exact List.forall₂_map_right_iff.mpr (each.imp fun _ _ both => both.1)
  · exact List.forall₂_map_right_iff.mpr (each.imp fun _ _ both => both.2)
  · rw [List.zip_map', List.map_id']
    exact (ofPure last).symm

theorem groupRuns (ran : ((group name id key element).run input).run start = (.ok grouped, last)) :
    ∃ rows groups out, input = .rows rows ∧ grouped = .rows out ∧ yields (groupRows rows key element) groups ∧
      out.items = groups.map Group.toValue := by
  have made : yields ((group name id key element).run input) grouped := ⟨start, last, ran⟩
  obtain ⟨rows, some, made⟩ := ofBind made
  obtain ⟨groups, gathered, made⟩ := ofBind made
  obtain ⟨item, -, made⟩ := ofBind made
  obtain ⟨out, fits, made⟩ := ofBind made
  refine ⟨rows, groups, out, ?_, (ofPure made).symm, gathered, (rowsMade (ofExcept fits)).2⟩
  cases input with
  | rows r =>
    cases ofExcept some
    rfl
  | scalar s => cases ofExcept some

/-- Rows are grouped under the keys that are left when repeats are left out of all computed ones. A group has the elements
of the rows whose key is its key, in their order, and every element is in one group. What is left out of any values is
what is the same key as a value before: each value has its key among those that stay, once, and those that stay have no
repeats left. -/
theorem groupsByKey (apart : input.value.apart = true) (names : key.Every Expr.NamesApart)
    (ran : ((group name id key element).run input).run start = (.ok grouped, last)) :
    (∃ rows out keys elements kept, input = .rows rows ∧ grouped = .rows out ∧
      rows.Gives key keys ∧ rows.Gives element elements ∧
      LeavesDistinct keys kept ∧ Value.Represents kept keys ∧
      out.items = kept.map (fun k => .grouping k (Value.gathered (keys.zip elements) k)) ∧
      (kept.flatMap (Value.gathered (keys.zip elements))).Perm elements) ∧
    ∀ items : List Value, (∀ v ∈ items, v.apart = true) →
      ∃ kept, LeavesDistinct items kept ∧ Value.Represents kept items ∧ LeavesDistinct kept kept := by
  refine ⟨?_, fun items apart => ?_⟩
  · obtain ⟨rows, groups, out, rfl, rfl, made, shown⟩ := groupRuns ran
    obtain ⟨keys, elements, keysGiven, elementsGiven, rfl⟩ := groupGives made
    have each : ∀ k ∈ keys, k.apart = true := keysGiven.apart names (Value.apartAllIff.mp apart)
    have lengths : keys.length = elements.length := keysGiven.length.trans elementsGiven.length.symm
    have firsts : (keys.zip elements).map (·.1) = keys := List.map_fst_zip (Nat.le_of_eq lengths)
    have seconds : (keys.zip elements).map (·.2) = elements := List.map_snd_zip (Nat.le_of_eq lengths.symm)
    have represents := Value.distinctRepresents each
    refine ⟨rows, out, keys, elements, _, rfl, rfl, keysGiven, elementsGiven, leavesDistinct, represents, ?_, ?_⟩
    · rw [shown, Value.groupGathers fun p inside => each p.1 (List.of_mem_zip inside).1, firsts, List.map_map]
      rfl
    · have one : ∀ p ∈ keys.zip elements, ∃ w, (Value.distinct keys).filter (·.sameKey p.1) = [w] :=
        fun p inside => represents.one p.1 (List.of_mem_zip inside).1
      exact (Value.gatheredPerm one).trans (List.Perm.of_eq seconds)
  · have represents := Value.distinctRepresents apart
    have again := Value.distinctAgain (represents.different.imp And.left)
    exact ⟨_, leavesDistinct, represents, fun rows same s => again ▸ leavesDistinct rows same s⟩

/- Keys of three kinds of number are one, and so are objects whose members stand in another order. -/
theorem groupsByKeyOfMixed :
    let type : ObjectType := .ofShape [("k", .any), ("n", .int)]
    let member (name : String) (ty : Ty) : Member := ⟨name, type.name, ty, .property⟩
    let item := Expr.reference 0 ⟨0, "x", .object type⟩
    let key := Expr.access 1 item (member "k" .any)
    let element := Expr.access 2 item (member "n" .int)
    let row (k : Value) (n : Int64) : Value := .object [("k", k), ("n", .integer n)]
    let point : Value := .object [("x", .integer 2), ("y", .null)]
    let turned : Value := .object [("y", .null), ("x", .float (Binary64.ofInt 2))]
    let items := [row (.integer 1) 10, row (.string "a") 11, row (.float (Binary64.ofInt 1)) 12, row point 13,
      row (.decimal ⟨false, 100, 2, by decide, by decide⟩) 14, row turned 15]
    ∃ rows grouped last, rows.items = items ∧
      ((group "g" 1 key element).run (.rows rows)).run ⟨3, 0, 2⟩ = (.ok grouped, last) ∧
      grouped.value = .array [.grouping (.integer 1) [.integer 10, .integer 12, .integer 14],
        .grouping (.string "a") [.integer 11], .grouping point [.integer 13, .integer 15]] ∧
      (∃ keys kept, rows.Gives key keys ∧ LeavesDistinct keys kept ∧ Value.Represents kept keys) ∧
      ∃ kept, LeavesDistinct items kept ∧ Value.Represents kept items ∧ LeavesDistinct kept kept := by
  intro type member item key element row point turned items
  let rows : Rows := ⟨.ofItem item, items, by decide +kernel⟩
  have apart : (Output.rows rows).value.apart = true := by decide +kernel
  have names : ∀ n ∈ key.nodes, n.NamesApart := by simp [key, item, Expr.nodes, Expr.NamesApart]
  have shown : (((group "g" 1 key element).run (.rows rows)).run ⟨3, 0, 2⟩).1.toOption.map Output.value =
      some (.array [.grouping (.integer 1) [.integer 10, .integer 12, .integer 14],
        .grouping (.string "a") [.integer 11], .grouping point [.integer 13, .integer 15]]) := by decide +kernel
  have succeeds : (((group "g" 1 key element).run (.rows rows)).run ⟨3, 0, 2⟩).1.isOk = true := by decide +kernel
  obtain ⟨grouped, last, ran⟩ := Build.okRun succeeds
  rw [ran] at shown
  obtain ⟨⟨rows', -, keys, -, kept, same, -, keysGiven, -, leaves, represents, -⟩, distinct⟩ :=
    groupsByKey apart names ran
  cases same
  exact ⟨rows, grouped, last, rfl, ran, Option.some.inj shown, ⟨keys, kept, keysGiven, leaves, represents⟩,
    distinct items (Value.apartAllIff.mp apart)⟩

end ResultOperator

end SymbolicQuery
