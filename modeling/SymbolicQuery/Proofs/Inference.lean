import SymbolicQuery.Proofs.Asking
import SymbolicQuery.Proofs.Documents

/-! The type that is found for a value accepts the value. Acceptance alone is not kept when types are
brought together: a type without a member accepts anything there, the merged type does not. What
is kept is that a type covers a value, which leaves no field of an object without a member. -/
namespace SymbolicQuery

namespace Ty

/-- A type accepts a value, and has a member for every field of every object in the value that it does not
take as `any`. -/
inductive Covers : Ty → Value → Prop where
  | any {v} : Covers .any v
  | null {t} : Covers t .null
  | bool {b} : Covers .bool (.boolean b)
  | int {n} : Covers .int (.integer n)
  | float {x} : Covers .float (.float x)
  | whole {n} : Covers .float (.integer n)
  | decimal {d} : Covers .decimal (.decimal d)
  | string {s} : Covers .string (.string s)
  | object {o : ObjectType} {fields : List (String × Value)}
      (named : ∀ name v, Fields.get? name fields = some v → ∃ m ∈ o.members, m.name = name)
      (members : ∀ m ∈ o.members, ∀ v, Fields.get? m.name fields = some v → Covers m.ty v) :
      Covers (.object o) (.object fields)
  | sequence {item items} (each : ∀ v ∈ items, Covers item v) : Covers (.sequence item) (.array items)
  | grouping {key element k es} (under : Covers key k) (each : ∀ v ∈ es, Covers element v) :
      Covers (.grouping key element) (.grouping k es)

theorem Covers.accepts {t : Ty} {v : Value} (covers : t.Covers v) : t.accepts v = true := by
  induction covers with
  | null => exact acceptsNull _
  | object _ _ ih => exact acceptsMembersIff.mpr ih
  | sequence _ ih =>
    rw [Ty.accepts]
    exact List.all_eq_true.mpr ih
  | grouping _ _ under each =>
    rw [Ty.accepts, under, Bool.true_and]
    exact List.all_eq_true.mpr each
  | any | bool | int | float | whole | decimal | string => rfl

variable {a b : Ty} {v : Value} {types : Fields Ty} {fields : List (String × Value)} {name : String}

theorem coversShape (apart : types.names.Nodup)
    (each : ∀ name v, Fields.get? name fields = some v → ∃ t, types.get? name = some t ∧ t.Covers v) :
    Covers (.object (.ofShape types)) (.object fields) := by
  refine .object (fun name v stored => ?_) fun m inside v stored => ?_
  · obtain ⟨t, got, _⟩ := each name v stored
    exact ⟨_, List.mem_map_of_mem (Fields.getInside got), rfl⟩
  · obtain ⟨⟨name, t⟩, given, rfl⟩ := List.mem_map.mp inside
    obtain ⟨u, got, covers⟩ := each name v stored
    cases (Fields.getApart apart given).symm.trans got
    exact covers

theorem Covers.member {o : ObjectType} (covers : Covers (.object o) (.object fields))
    (stored : Fields.get? name fields = some v) : ∃ m ∈ o.members, m.name = name ∧ m.ty.Covers v := by
  cases covers with
  | object named members =>
    obtain ⟨m, inside, rfl⟩ := named name v stored
    exact ⟨m, inside, rfl, members m inside v stored⟩

theorem Covers.listed {o : ObjectType} (covers : Covers (.object o) (.object fields))
    (stored : Fields.get? name fields = some v) :
    ∃ t, (Fields.ofList (o.members.map fun m => (m.name, m.ty))).get? name = some t ∧ t.Covers v := by
  cases covers with
  | object named members =>
    obtain ⟨m, inside, same⟩ := named name v stored
    refine Fields.ofListGrows (fun e given same => ?_) (fun _ none => by cases none)
      (.inr ⟨(m.name, m.ty), List.mem_map_of_mem inside, same⟩)
    obtain ⟨n, inside, rfl⟩ := List.mem_map.mp given
    subst same
    exact members n inside v stored

theorem mergeApart {ms : List Member} (apart : types.names.Nodup) : (mergeMembers types ms).names.Nodup := by
  induction ms generalizing types with
  | nil => exact apart
  | cons m rest ih =>
    unfold mergeMembers
    exact ih (Fields.apartPut apart)

theorem leafCovers (shallow : ∀ item, b ≠ .sequence item) (flat : ∀ o, b ≠ .object o)
    (either : a.Covers v ∨ b.Covers v) : (unify a b).Covers v := by
  -- Whole numbers widen, and everything else that differs becomes `any`.
  unfold unify
  split
  · rename_i same
    exact either.elim id fun covers => same ▸ covers
  · split
    · rcases either with covers | covers
      · cases covers <;> constructor
      · exact covers
    · rcases either with covers | covers
      · exact covers
      · cases covers <;> constructor
    · exact absurd rfl (shallow _)
    · exact absurd rfl (flat _)
    · exact .any

mutual

theorem unifyCovers : {a : Ty} → (b : Ty) → {v : Value} → a.Covers v ∨ b.Covers v → (unify a b).Covers v
  | a, .sequence y, v, either => by
    unfold unify
    split
    · rename_i same
      exact either.elim id fun covers => same ▸ covers
    · cases a with
      | sequence x =>
        rcases either with covers | covers
        · cases covers with
          | null => exact .null
          | sequence each => exact .sequence fun w inside => unifyCovers y (.inl (each w inside))
        · cases covers with
          | null => exact .null
          | sequence each => exact .sequence fun w inside => unifyCovers y (.inr (each w inside))
      | _ => exact .any
  | a, .object ⟨n, members, k⟩, v, either => by
    unfold unify
    split
    · rename_i same
      exact either.elim id fun covers => same ▸ covers
    · cases a with
      | object x =>
        have merged : ∀ {fields}, Covers (.object x) (.object fields) ∨
            Covers (.object ⟨n, members, k⟩) (.object fields) →
            Covers (.object (.ofShape (mergeMembers
              (Fields.ofList (x.members.map fun m => (m.name, m.ty))) members))) (.object fields) :=
          fun either => coversShape (mergeApart Fields.ofListApart) fun name v stored =>
            mergeCovers members (either.imp (·.listed stored) (·.member stored))
        rcases either with covers | covers
        · cases covers with
          | null => exact .null
          | object named each => exact merged (.inl (.object named each))
        · cases covers with
          | null => exact .null
          | object named each => exact merged (.inr (.object named each))
      | _ => exact .any
  | _, .any, _, either | _, .bool, _, either | _, .int, _, either | _, .float, _, either
  | _, .decimal, _, either | _, .string, _, either | _, .grouping .., _, either
  | _, .function .., _, either => leafCovers (fun _ h => by cases h) (fun _ h => by cases h) either

theorem mergeCovers : {types : Fields Ty} → (ms : List Member) → {name : String} → {v : Value} →
    (∃ t, types.get? name = some t ∧ t.Covers v) ∨ (∃ m ∈ ms, m.name = name ∧ m.ty.Covers v) →
    ∃ t, (mergeMembers types ms).get? name = some t ∧ t.Covers v
  | _, [], _, _, .inl known => known
  | _, [], _, _, .inr ⟨_, inside, _⟩ => by cases inside
  | types, ⟨n, _, ty, _⟩ :: rest, name, v, either => by
    unfold mergeMembers
    refine mergeCovers rest ?_
    simp only [Fields.getPut]
    by_cases same : n = name
    · subst same
      simp only [if_true]
      rcases either with ⟨t, got, covers⟩ | ⟨m, inside, same, covers⟩
      · rw [got]
        exact .inl ⟨_, rfl, unifyCovers ty (.inl covers)⟩
      · rcases List.mem_cons.mp inside with rfl | inside
        · cases types.get? n with
          | none => exact .inl ⟨_, rfl, covers⟩
          | some old => exact .inl ⟨_, rfl, unifyCovers ty (.inr covers)⟩
        · exact .inr ⟨m, inside, same, covers⟩
    · simp only [if_neg same]
      refine either.imp id fun ⟨m, inside, same', covers⟩ => ?_
      rcases List.mem_cons.mp inside with rfl | inside
      · exact absurd same' same
      · exact ⟨m, inside, same', covers⟩

end

theorem unifyAllCovers {ts : List Ty} (some : ∃ t ∈ ts, t.Covers v) : (unifyAll ts).Covers v := by
  cases ts with
  | nil =>
    obtain ⟨_, none, _⟩ := some
    cases none
  | cons t rest =>
    obtain ⟨u, inside, covers⟩ := some
    have either : t.Covers v ∨ ∃ u ∈ rest, u.Covers v := by
      rcases List.mem_cons.mp inside with rfl | later
      · exact .inl covers
      · exact .inr ⟨u, later, covers⟩
    clear inside covers
    unfold unifyAll
    induction rest generalizing t with
    | nil => exact either.elim id fun ⟨_, inside, _⟩ => by cases inside
    | cons next rest ih =>
      refine ih (unify t next) ?_
      rcases either with covers | ⟨w, inside, covers⟩
      · exact .inl (unifyCovers next (.inl covers))
      · rcases List.mem_cons.mp inside with rfl | later
        · exact .inl (unifyCovers w (.inr covers))
        · exact .inr ⟨w, later, covers⟩

theorem itemCovered {ts : List Ty} (found : v = .null ∨ ∃ t ∈ ts, t.Covers v) : (unifyAll ts).Covers v :=
  found.elim (fun absent => absent ▸ .null) unifyAllCovers

theorem inferMembersNames : {members : List (String × Value)} →
    Fields.names (inferMembers members) = Fields.names members
  | [] => rfl
  | (name, _) :: _ => congrArg (name :: ·) inferMembersNames

mutual

theorem inferCovers : (v : Value) → v.apart = true → (infer v).Covers v
  | .null, _ => .null
  | .boolean _, _ => .bool
  | .integer _, _ => .int
  | .float _, _ => .float
  | .decimal _, _ => .decimal
  | .string _, _ => .string
  | .array items, apart => .sequence fun v inside => itemCovered (inferItemsCover items apart v inside)
  | .object members, apart => by
    unfold Value.apart at apart
    rw [Bool.and_eq_true, decide_eq_true_iff] at apart
    unfold infer
    refine coversShape (by rw [inferMembersNames]; exact apart.1) fun name v stored => ?_
    exact inferMembersCover members apart.2 stored
  | .grouping key elements, apart => by
    unfold Value.apart at apart
    rw [Bool.and_eq_true] at apart
    exact .grouping (inferCovers key apart.1) fun v inside =>
      itemCovered (inferItemsCover elements apart.2 v inside)

theorem inferItemsCover : (items : List Value) → Value.apartAll items = true →
    ∀ v ∈ items, v = .null ∨ ∃ t ∈ inferItems items, t.Covers v
  | [], _, _, inside => by cases inside
  | w :: rest, apart, v, inside => by
    unfold Value.apartAll at apart
    rw [Bool.and_eq_true] at apart
    unfold inferItems
    rcases List.mem_cons.mp inside with same | later
    · rw [same]
      split
      · rename_i absent
        exact .inl absent
      · exact .inr ⟨_, List.mem_cons_self, inferCovers w apart.1⟩
    · refine (inferItemsCover rest apart.2 v later).imp id fun ⟨t, among, covers⟩ => ?_
      split
      · exact ⟨t, among, covers⟩
      · exact ⟨t, List.mem_cons_of_mem _ among, covers⟩

theorem inferMembersCover : (members : List (String × Value)) → Value.apartMembers members = true →
    {name : String} → {v : Value} → Fields.get? name members = some v →
    ∃ t, Fields.get? name (inferMembers members) = some t ∧ t.Covers v
  | [], _, _, _, stored => by cases stored
  | (n, w) :: rest, apart, name, v, stored => by
    unfold Value.apartMembers at apart
    rw [Bool.and_eq_true] at apart
    unfold inferMembers
    unfold Fields.get? at stored ⊢
    split at stored
    · rename_i same
      cases stored
      exact ⟨_, if_pos same, inferCovers w apart.1⟩
    · rename_i other
      rw [if_neg other]
      exact inferMembersCover rest apart.2 stored

end

end Ty

namespace Command
variable {v : Value} {items : List Value} {input : String} {js : List Json}

theorem constantRuns {t : Ty} (accepted : t.accepts v = true) (s : Supply) :
    ∃ start s', (querying (Build.constant v t)).run s = (.ok start, s') := by
  unfold Build.constant Build.ensure
  rw [if_pos accepted]
  exact ⟨_, _, rfl⟩

/-- The type that is found for a value accepts the value, and so an array always becomes the root of a
chain: no mixture of items in a document is refused. Objects name their members apart, as those of
documents do. -/
theorem inferredAccepts : (∀ v : Value, v.apart = true → (Ty.infer v).accepts v = true) ∧
    (∀ items, (Value.array items).apart = true →
      ∀ s, ∃ start s', (rootOf (.array items)).run s = (.ok start, s')) ∧
    ∀ input js, Json.read? input = some (.array js) →
      ∀ s, ∃ start s', (root (some input)).run s = (.ok start, s') := by
  have accepts : ∀ v : Value, v.apart = true → (Ty.infer v).accepts v = true :=
    fun v apart => (Ty.inferCovers v apart).accepts
  refine ⟨accepts, fun items apart s => constantRuns (accepts _ apart) s, fun input js document s => ?_⟩
  rw [rootRun document]
  exact constantRuns (accepts _ (Json.readApart document)) s

def mixedItems : List Value :=
  [.object [("a", .integer 1), ("b", .array [])], .null,
    .object [("c", .decimal (Decimal.ofInt64 2)), ("a", .float (Binary64.ofNat 3))],
    .grouping (.boolean true) [.null, .string "d"]]

/- Items of unlike shapes, one of them a group, and a document that repeats a name. -/
theorem inferredAcceptsMixed : (Ty.infer (.array mixedItems)).accepts (.array mixedItems) = true ∧
    (∀ s, ∃ start s', (rootOf (.array mixedItems)).run s = (.ok start, s')) ∧
    ∀ s, ∃ start s', (root (some "[\x7b\"a\": 1, \"b\": []\x7d, null, \x7b\"a\": [2.5], \"a\": null\x7d]")).run s =
      (.ok start, s') := by
  obtain ⟨accepts, ofItems, ofDocument⟩ := inferredAccepts
  refine ⟨accepts _ (by decide +kernel), ofItems _ (by decide +kernel), fun s => ?_⟩
  obtain ⟨js, document, -⟩ := Json.itemsMeeting
    "[\x7b\"a\": 1, \"b\": []\x7d, null, \x7b\"a\": [2.5], \"a\": null\x7d]" (fun _ => true) (by decide +kernel)
  exact ofDocument _ js document s

end Command

end SymbolicQuery
