import SymbolicQuery.Proofs.Equivalence
import SymbolicQuery.Proofs.Inference

/-! Types by how much they admit. What two types are brought together to is the least type above both, so the type of the
items of an array is the least one above the types of them all: it depends on which types these are and not on their order. -/
namespace SymbolicQuery

namespace Fields
variable {α : Type} {fs : Fields α} {name : String}

theorem getAbsent (fresh : name ∉ fs.names) : fs.get? name = none := by
  cases got : fs.get? name with
  | none => rfl
  | some a => exact absurd (List.mem_map_of_mem (getInside got)) fresh

theorem ofListGet (apart : fs.names.Nodup) : (ofList fs).get? name = fs.get? name := by
  suffices grows : ∀ fields : Fields α, (fs.foldl (fun fields entry => fields.put entry.1 entry.2) fields).get? name =
      (fs.get? name).or (fields.get? name) by
    rw [ofList, grows]
    cases fs.get? name <;> rfl
  induction fs with
  | nil => intro fields; rfl
  | cons entry rest ih =>
    obtain ⟨fresh, later⟩ := List.nodup_cons.mp apart
    intro fields
    rw [List.foldl_cons, ih later, getPut]
    by_cases same : entry.1 = name
    · subst same
      have absent : Fields.get? entry.1 rest = none := getAbsent fresh
      simp [get?, absent]
    · simp [get?, same]

end Fields

namespace ObjectOf

def fields (o : ObjectType) : Fields Ty := o.members.map fun m => (m.name, m.ty)

theorem shapeFields (fs : Fields Ty) : (ofShape fs).fields = fs := by
  simp only [fields, ofShape, declare, List.map_map]
  exact List.map_id fs

end ObjectOf

namespace Ty

variable {a b c x y z : Ty} {o q : ObjectType} {fs gs : Fields Ty} {name : String} {ts : List Ty}

/-- A type admits at least as much as another: whole numbers are numbers, items and members may be wider, and an object
type has at least the members. -/
inductive Below : Ty → Ty → Prop where
  | same (t : Ty) : Below t t
  | any (t : Ty) : Below t .any
  | widened : Below .int .float
  | sequence {x y : Ty} (items : Below x y) : Below (.sequence x) (.sequence y)
  | object {o q : ObjectType} (named : ∀ n t, o.fields.get? n = some t → ∃ u, q.fields.get? n = some u)
      (each : ∀ n t u, o.fields.get? n = some t → q.fields.get? n = some u → Below t u) : Below (.object o) (.object q)

theorem sequenceBelow (below : Below (.sequence x) c) : c = .any ∨ ∃ z, c = .sequence z ∧ Below x z := by
  cases below with
  | same => exact .inr ⟨x, rfl, .same x⟩
  | any => exact .inl rfl
  | sequence items => exact .inr ⟨_, rfl, items⟩

theorem objectBelow (below : Below (.object o) c) : c = .any ∨ ∃ q, c = .object q ∧
    ∀ n t, o.fields.get? n = some t → ∃ u, q.fields.get? n = some u ∧ Below t u := by
  cases below with
  | same => exact .inr ⟨o, rfl, fun n t got => ⟨t, got, .same t⟩⟩
  | any => exact .inl rfl
  | object named each =>
    refine .inr ⟨_, rfl, fun n t got => ?_⟩
    obtain ⟨u, got'⟩ := named n t got
    exact ⟨u, got', each n t u got got'⟩

theorem belowObject (each : ∀ n t, o.fields.get? n = some t → ∃ u, q.fields.get? n = some u ∧ Below t u) :
    Below (.object o) (.object q) := by
  refine .object (fun n t got => ?_) fun n t u got got' => ?_
  · obtain ⟨u, got', _⟩ := each n t got
    exact ⟨u, got'⟩
  · obtain ⟨u', got'', below⟩ := each n t got
    cases got''.symm.trans got'
    exact below

theorem Below.trans (first : Below a b) (next : Below b c) : Below a c := by
  induction first generalizing c with
  | same => exact next
  | any =>
    cases next <;> exact .any _
  | widened =>
    cases next with
    | same => exact .widened
    | any => exact .any _
  | sequence _ ih =>
    rcases sequenceBelow next with rfl | ⟨z, rfl, items⟩
    · exact .any _
    · exact .sequence (ih items)
  | object named each ih =>
    rcases objectBelow next with rfl | ⟨r, rfl, later⟩
    · exact .any _
    · refine belowObject fun n t got => ?_
      obtain ⟨u, got'⟩ := named n t got
      obtain ⟨v, got'', below⟩ := later n u got'
      exact ⟨v, got'', ih n t u got got' below⟩

/-- Types as they are found for values without groups: the members of an object type have names of their own, and the type
is named after them. -/
inductive Shaped : Ty → Prop where
  | any : Shaped .any
  | bool : Shaped .bool
  | int : Shaped .int
  | float : Shaped .float
  | decimal : Shaped .decimal
  | string : Shaped .string
  | sequence {item : Ty} (inner : Shaped item) : Shaped (.sequence item)
  | object {o : ObjectType} (shape : o = .ofShape o.fields) (apart : o.fields.names.Nodup)
      (each : ∀ f ∈ o.fields, Shaped f.2) : Shaped (.object o)

def merged : Option Ty → Option Ty → Option Ty
  | some x, some y => some (unify x y)
  | some x, none => some x
  | none, other => other

theorem mergedCases {s r : Option Ty} {t : Ty} (known : merged s r = some t) :
    (∃ u v, s = some u ∧ r = some v ∧ unify u v = t) ∨ (s = some t ∧ r = none) ∨ (s = none ∧ r = some t) := by
  cases s with
  | none => exact .inr (.inr ⟨rfl, known⟩)
  | some u =>
    cases r with
    | none => exact .inr (.inl ⟨known, rfl⟩)
    | some v => exact .inl ⟨u, v, rfl, rfl, Option.some.inj known⟩

theorem mergeGet {ms : List Member} (apart : (ms.map (·.name)).Nodup) :
    (mergeMembers fs ms).get? name = merged (fs.get? name) (Fields.get? name (ms.map fun m => (m.name, m.ty))) := by
  induction ms generalizing fs with
  | nil =>
    unfold mergeMembers
    cases fs.get? name <;> rfl
  | cons m rest ih =>
    obtain ⟨fresh, later⟩ := List.nodup_cons.mp apart
    unfold mergeMembers
    simp only [ih later, Fields.getPut, List.map_cons, Fields.get?]
    by_cases same : m.name = name
    · have absent : Fields.get? name (rest.map fun m => (m.name, m.ty)) = none := by
        refine Fields.getAbsent ?_
        simpa [Fields.names, ← same, Function.comp_def] using fresh
      subst same
      simp only [if_true, absent]
      cases fs.get? m.name <;> rfl
    · simp only [if_neg same]

theorem objectNames : o.fields.names = o.members.map (·.name) := by
  simp [ObjectOf.fields, Fields.names, Function.comp_def]

def joint (o q : ObjectType) : Fields Ty := mergeMembers (Fields.ofList o.fields) q.members

theorem jointGet (apart : o.fields.names.Nodup) (apart' : q.fields.names.Nodup) :
    (joint o q).get? name = merged (o.fields.get? name) (q.fields.get? name) := by
  rw [objectNames] at apart'
  rw [joint, mergeGet apart', Fields.ofListGet apart]
  rfl

inductive Unifies : Ty → Ty → Ty → Prop where
  | same (t : Ty) : Unifies t t t
  | left : Unifies .int .float .float
  | right : Unifies .float .int .float
  | sequence {x y : Ty} (different : x ≠ y) : Unifies (.sequence x) (.sequence y) (.sequence (unify x y))
  | object {o q : ObjectType} (different : o ≠ q) : Unifies (.object o) (.object q) (.object (.ofShape (joint o q)))
  | unlike {a b : Ty} (least : ∀ c, Below a c → Below b c → c = .any) : Unifies a b .any

theorem unifies (a b : Ty) : Unifies a b (unify a b) := by
  by_cases different : a = b
  · subst different
    unfold unify
    rw [if_pos rfl]
    exact .same a
  · unfold unify
    rw [if_neg different]
    split
    · exact .left
    · exact .right
    · exact .sequence fun same => different (congrArg _ same)
    · exact .object fun same => different (congrArg _ same)
    · rename_i notLeft notRight notSequences notObjects
      -- types of different kinds have nothing above both but `any`
      refine .unlike fun c first second => ?_
      cases first with
      | any => rfl
      | same =>
        cases second with
        | same => exact absurd rfl different
        | any => rfl
        | widened => exact absurd rfl (notRight rfl)
        | sequence => exact absurd rfl (notSequences _ _ rfl)
        | object => exact absurd rfl (notObjects _ _ rfl)
      | widened =>
        cases second with
        | same => exact absurd rfl (notLeft rfl)
        | widened => exact absurd rfl different
      | sequence =>
        cases second with
        | same | sequence => exact absurd rfl (notSequences _ _ rfl)
      | object =>
        cases second with
        | same | object => exact absurd rfl (notObjects _ _ rfl)

theorem Shaped.apart (shaped : Shaped (.object o)) : o.fields.names.Nodup := by
  cases shaped with
  | object _ apart _ => exact apart

theorem Shaped.member {t : Ty} (shaped : Shaped (.object o)) (got : o.fields.get? name = some t) : Shaped t := by
  cases shaped with
  | object _ _ each => exact each _ (Fields.getInside got)

theorem Shaped.item (shaped : Shaped (.sequence x)) : Shaped x := by
  cases shaped with
  | sequence inner => exact inner

theorem shapedShape (apart : fs.names.Nodup) (each : ∀ n t, fs.get? n = some t → Shaped t) :
    Shaped (.object (.ofShape fs)) := by
  refine .object (congrArg _ (ObjectOf.shapeFields fs).symm) ?_ ?_ <;> rw [ObjectOf.shapeFields]
  · exact apart
  · exact fun f inside => each f.1 f.2 (Fields.getApart apart inside)

theorem unifyShaped (first : Shaped a) (second : Shaped b) : Shaped (unify a b) := by
  have known := unifies a b
  generalize unify a b = c at known
  induction first generalizing b c with
  | any | bool | int | float | decimal | string => cases known <;> constructor
  | sequence inner ih =>
    cases known with
    | same => exact second
    | sequence => exact .sequence (ih second.item _ (unifies _ _))
    | unlike => exact .any
  | @object o shape apart each ih =>
    cases known with
    | same => exact second
    | object =>
      refine shapedShape (mergeApart Fields.ofListApart) fun n t got => ?_
      rw [jointGet apart second.apart] at got
      rcases mergedCases got with ⟨u, v, left, right, rfl⟩ | ⟨left, _⟩ | ⟨_, right⟩
      · exact ih _ (Fields.getInside left) (second.member right) _ (unifies _ _)
      · exact each _ (Fields.getInside left)
      · exact second.member right
    | unlike => exact .any

theorem unifyAbove (first : Shaped a) (second : Shaped b) : Below a (unify a b) ∧ Below b (unify a b) := by
  have known := unifies a b
  generalize unify a b = c at known
  induction first generalizing b c with
  | any | bool | int | float | decimal | string => cases known <;> exact ⟨by constructor, by constructor⟩
  | sequence inner ih =>
    cases known with
    | same => exact ⟨.same _, .same _⟩
    | sequence =>
      obtain ⟨left, right⟩ := ih second.item _ (unifies _ _)
      exact ⟨.sequence left, .sequence right⟩
    | unlike => exact ⟨.any _, .any _⟩
  | @object o shape apart each ih =>
    cases known with
    | same => exact ⟨.same _, .same _⟩
    | @object _ q =>
      have joined (n : String) : (ObjectOf.ofShape (joint o q)).fields.get? n = merged (o.fields.get? n) (q.fields.get? n) := by
        rw [ObjectOf.shapeFields, jointGet apart second.apart]
      constructor <;> refine belowObject fun n t got => ?_ <;> rw [joined, got]
      · cases other : q.fields.get? n with
        | none => exact ⟨t, rfl, .same t⟩
        | some u => exact ⟨_, rfl, (ih _ (Fields.getInside got) (second.member other) _ (unifies _ _)).1⟩
      · cases other : o.fields.get? n with
        | none => exact ⟨t, rfl, .same t⟩
        | some u => exact ⟨_, rfl, (ih _ (Fields.getInside other) (second.member got) _ (unifies _ _)).2⟩
    | unlike => exact ⟨.any _, .any _⟩

theorem unifyLeast (first : Shaped a) (second : Shaped b) (left : Below a c) (right : Below b c) : Below (unify a b) c := by
  have known := unifies a b
  -- `known` says how the bound came about, which the induction needs at every depth
  generalize unify a b = d at known
  induction first generalizing b c d with
  | any | bool | int | float | decimal | string =>
    cases known with
    | unlike least =>
      obtain rfl := least c left right
      exact .any _
    | _ => assumption
  | sequence inner ih =>
    cases known with
    | same => exact right
    | sequence =>
      rcases sequenceBelow left with rfl | ⟨z, rfl, items⟩
      · exact .any _
      · rcases sequenceBelow right with none | ⟨z', same, items'⟩
        · cases none
        · cases same
          exact .sequence (ih second.item items items' _ (unifies _ _))
    | unlike least =>
      obtain rfl := least c left right
      exact .any _
  | @object o shape apart each ih =>
    cases known with
    | same => exact right
    | object =>
      rcases objectBelow left with rfl | ⟨r, rfl, lefts⟩
      · exact .any _
      · rcases objectBelow right with none | ⟨r', same, rights⟩
        · cases none
        · cases same
          refine belowObject fun n t got => ?_
          rw [ObjectOf.shapeFields, jointGet apart second.apart] at got
          rcases mergedCases got with ⟨u, v, here, there, rfl⟩ | ⟨here, _⟩ | ⟨_, there⟩
          · obtain ⟨w, got, below⟩ := lefts n u here
            obtain ⟨w', got', below'⟩ := rights n v there
            cases got.symm.trans got'
            exact ⟨w, got, ih _ (Fields.getInside here) (second.member there) below below' _ (unifies _ _)⟩
          · exact lefts n t here
          · exact rights n t there
    | unlike least =>
      obtain rfl := least c left right
      exact .any _

theorem foldShaped (start : Shaped a) (each : ∀ t ∈ ts, Shaped t) : Shaped (ts.foldl unify a) := by
  induction ts generalizing a with
  | nil => exact start
  | cons t rest ih =>
    obtain ⟨here, later⟩ := List.forall_mem_cons.mp each
    exact ih (unifyShaped start here) later

theorem foldAbove (start : Shaped a) (each : ∀ t ∈ ts, Shaped t) : ∀ t ∈ a :: ts, Below t (ts.foldl unify a) := by
  induction ts generalizing a with
  | nil => simpa using Below.same a
  | cons u rest ih =>
    obtain ⟨here, later⟩ := List.forall_mem_cons.mp each
    obtain ⟨left, right⟩ := unifyAbove start here
    obtain ⟨both, others⟩ := List.forall_mem_cons.mp (ih (unifyShaped start here) later)
    exact List.forall_mem_cons.mpr ⟨left.trans both, List.forall_mem_cons.mpr ⟨right.trans both, others⟩⟩

theorem foldLeast (start : Shaped a) (each : ∀ t ∈ ts, Shaped t) (below : ∀ t ∈ a :: ts, Below t c) :
    Below (ts.foldl unify a) c := by
  induction ts generalizing a with
  | nil => exact below a List.mem_cons_self
  | cons u rest ih =>
    obtain ⟨here, later⟩ := List.forall_mem_cons.mp each
    obtain ⟨left, right, others⟩ := List.forall_mem_cons.mp below |>.imp_right List.forall_mem_cons.mp
    exact ih (unifyShaped start here) later (List.forall_mem_cons.mpr ⟨unifyLeast start here left right, others⟩)

theorem unifyAllShaped (each : ∀ t ∈ ts, Shaped t) : Shaped (unifyAll ts) := by
  cases ts with
  | nil => exact .any
  | cons t rest =>
    obtain ⟨here, later⟩ := List.forall_mem_cons.mp each
    exact foldShaped here later

theorem unifyAllBelow {us : List Ty} (each : ∀ t ∈ ts, Shaped t) (each' : ∀ u ∈ us, Shaped u) (same : ∀ t, t ∈ ts ↔ t ∈ us) :
    Below (unifyAll ts) (unifyAll us) := by
  cases ts with
  | nil =>
    cases us with
    | nil => exact .same _
    | cons u rest => cases (same u).mpr List.mem_cons_self
  | cons t rest =>
    cases us with
    | nil => cases (same t).mp List.mem_cons_self
    | cons u others =>
      obtain ⟨here, later⟩ := List.forall_mem_cons.mp each
      obtain ⟨here', later'⟩ := List.forall_mem_cons.mp each'
      exact foldLeast here later fun v inside => foldAbove here' later' v ((same v).mp inside)

mutual

/-- Types that are the same up to the order of members inside object types that are named after their members. -/
inductive Reordered : Ty → Ty → Prop where
  | same (t : Ty) : Reordered t t
  | sequence {x y : Ty} (items : Reordered x y) : Reordered (.sequence x) (.sequence y)
  | object {fs gs hs : Fields Ty} (each : ReorderedEach fs gs) (order : gs.Perm hs) :
      Reordered (.object (.ofShape fs)) (.object (.ofShape hs))

inductive ReorderedEach : Fields Ty → Fields Ty → Prop where
  | nil : ReorderedEach [] []
  | cons {name : String} {t u : Ty} {fs gs : Fields Ty} (here : Reordered t u) (later : ReorderedEach fs gs) :
      ReorderedEach ((name, t) :: fs) ((name, u) :: gs)

end

theorem reorderedFields (apart : fs.names.Nodup) (apart' : gs.names.Nodup) (within : ∀ n ∈ gs.names, n ∈ fs.names)
    (each : ∀ f ∈ fs, ∃ u, gs.get? f.1 = some u ∧ Reordered f.2 u) : ∃ hs, ReorderedEach fs hs ∧ hs.Perm gs := by
  induction fs generalizing gs with
  | nil =>
    cases gs with
    | nil => exact ⟨[], .nil, .refl _⟩
    | cons g gs => cases within g.1 List.mem_cons_self
  | cons f rest ih =>
    obtain ⟨n, t⟩ := f
    obtain ⟨fresh, apartRest⟩ := List.nodup_cons.mp apart
    obtain ⟨⟨u, got, here⟩, later⟩ := List.forall_mem_cons.mp each
    obtain ⟨before, after, rfl⟩ := List.append_of_mem (Fields.getInside got)
    have moved : (Fields.names ((n, u) :: (before ++ after))).Nodup := (List.perm_middle.map Prod.fst).nodup_iff.mp apart'
    obtain ⟨absent, apartOthers⟩ := List.nodup_cons.mp moved
    have among {g : String × Ty} (inside : g ∈ before ++ (n, u) :: after) (other : g.1 ≠ n) : g ∈ before ++ after := by
      rcases List.mem_cons.mp (List.perm_middle.mem_iff.mp inside) with rfl | inside
      · exact absurd rfl other
      · exact inside
    have within' : ∀ m ∈ Fields.names (before ++ after), m ∈ Fields.names rest := fun m inside => by
      have listed : m ∈ Fields.names (before ++ (n, u) :: after) :=
        (List.perm_middle.map Prod.fst).mem_iff.mpr (List.mem_cons_of_mem _ inside)
      rcases List.mem_cons.mp (within m listed) with rfl | inside'
      · exact absurd inside absent
      · exact inside'
    have each' : ∀ g ∈ rest, ∃ v, Fields.get? g.1 (before ++ after) = some v ∧ Reordered g.2 v := fun g inside => by
      obtain ⟨v, got', reordered⟩ := later g inside
      have listed : g.1 ∈ Fields.names rest := List.mem_map_of_mem inside
      have other : g.1 ≠ n := fun same => fresh (same ▸ listed)
      exact ⟨v, Fields.getApart apartOthers (among (Fields.getInside got') other), reordered⟩
    obtain ⟨hs, made, order⟩ := ih apartRest apartOthers within' each'
    exact ⟨(n, u) :: hs, .cons here made, (order.cons _).trans List.perm_middle.symm⟩

theorem reordered (first : Shaped a) (second : Shaped b) (left : Below a b) (right : Below b a) : Reordered a b := by
  induction first generalizing b with
  | any | bool | int | float | decimal | string => cases left <;> cases right <;> exact .same _
  | sequence inner ih =>
    rcases sequenceBelow left with rfl | ⟨z, rfl, items⟩
    · cases right
    · rcases sequenceBelow right with none | ⟨x, same, items'⟩
      · cases none
      · cases same
        exact .sequence (ih second.item items items')
  | @object o shape apart each ih =>
    rcases objectBelow left with rfl | ⟨q, rfl, lefts⟩
    · cases right
    · rcases objectBelow right with none | ⟨r, same, rights⟩
      · cases none
      · cases same
        have within : ∀ n ∈ q.fields.names, n ∈ o.fields.names := fun n inside => by
          obtain ⟨t, inside⟩ := Fields.nameInside.mp inside
          obtain ⟨u, got, _⟩ := rights n t (Fields.getApart second.apart inside)
          exact Fields.nameInside.mpr ⟨u, Fields.getInside got⟩
        have found : ∀ f ∈ o.fields, ∃ u, q.fields.get? f.1 = some u ∧ Reordered f.2 u := fun f inside => by
          have got := Fields.getApart apart inside
          obtain ⟨u, got', below⟩ := lefts f.1 f.2 got
          obtain ⟨t, back, below'⟩ := rights f.1 u got'
          cases got.symm.trans back
          exact ⟨u, got', ih f inside (second.member got') below below'⟩
        obtain ⟨hs, made, order⟩ := reorderedFields apart second.apart within found
        cases second with
        | object shape' _ _ =>
          rw [shape, shape']
          exact .object made order

end Ty

namespace Value

mutual

def ungrouped : Value → Bool
  | .grouping _ _ => false
  | .array items => ungroupedAll items
  | .object members => ungroupedMembers members
  | _ => true

def ungroupedAll : List Value → Bool
  | [] => true
  | v :: rest => v.ungrouped && ungroupedAll rest

def ungroupedMembers : List (String × Value) → Bool
  | [] => true
  | (_, v) :: rest => v.ungrouped && ungroupedMembers rest

end

end Value

namespace Ty

theorem memInferItems {t : Ty} {items : List Value} : t ∈ inferItems items ↔ ∃ v ∈ items, v ≠ .null ∧ infer v = t := by
  induction items with
  | nil => simp [inferItems]
  | cons v rest ih =>
    unfold inferItems
    split <;> simp_all [eq_comm]

mutual

theorem inferShaped : (v : Value) → v.ungrouped = true → v.apart = true → Shaped (infer v)
  | .null, _, _ => .any
  | .boolean _, _, _ => .bool
  | .integer _, _, _ => .int
  | .float _, _, _ => .float
  | .decimal _, _, _ => .decimal
  | .string _, _, _ => .string
  | .array items, ungrouped, apart => .sequence (unifyAllShaped (inferItemsShaped items ungrouped apart))
  | .object members, ungrouped, apart => by
    obtain ⟨names, parts⟩ := Bool.and_eq_true_iff.mp apart
    unfold infer
    refine shapedShape (by rw [inferMembersNames]; exact of_decide_eq_true names) fun n t got => ?_
    exact inferMembersShaped members ungrouped parts _ (Fields.getInside got)
  | .grouping _ _, ungrouped, _ => by cases ungrouped

theorem inferItemsShaped : (items : List Value) → Value.ungroupedAll items = true → Value.apartAll items = true →
    ∀ t ∈ inferItems items, Shaped t
  | [], _, _ => by simp [inferItems]
  | v :: rest, ungrouped, apart => by
    obtain ⟨plain, others⟩ := Bool.and_eq_true_iff.mp ungrouped
    obtain ⟨here, later⟩ := Bool.and_eq_true_iff.mp apart
    unfold inferItems
    split
    · exact inferItemsShaped rest others later
    · exact List.forall_mem_cons.mpr ⟨inferShaped v plain here, inferItemsShaped rest others later⟩

theorem inferMembersShaped : (members : List (String × Value)) → Value.ungroupedMembers members = true →
    Value.apartMembers members = true → ∀ f ∈ inferMembers members, Shaped f.2
  | [], _, _ => by simp [inferMembers]
  | (n, v) :: rest, ungrouped, apart => by
    obtain ⟨plain, others⟩ := Bool.and_eq_true_iff.mp ungrouped
    obtain ⟨here, later⟩ := Bool.and_eq_true_iff.mp apart
    exact List.forall_mem_cons.mpr ⟨inferShaped v plain here, inferMembersShaped rest others later⟩

end

variable {rows rows' : List Value}

/-- The type that is found for an array of documents does not depend on their order, up to the order of members inside
the object types in it. -/
theorem inferReordered (ungrouped : (Value.array rows).ungrouped = true) (apart : (Value.array rows).apart = true)
    (order : rows.Perm rows') : Reordered (infer (.array rows)) (infer (.array rows')) := by
  have each : ∀ t ∈ inferItems rows, Shaped t := inferItemsShaped rows ungrouped apart
  have same (t : Ty) : t ∈ inferItems rows ↔ t ∈ inferItems rows' := by simp only [memInferItems, order.mem_iff]
  have each' : ∀ t ∈ inferItems rows', Shaped t := fun t inside => each t ((same t).mpr inside)
  exact .sequence (reordered (unifyAllShaped each) (unifyAllShaped each') (unifyAllBelow each each' same)
    (unifyAllBelow each' each fun t => (same t).symm))

def unevenRows : List Value :=
  [.object [("a", .integer 1), ("b", .array [.object [("x", .boolean true)]])], .null,
    .object [("b", .array [.object [("y", .null), ("x", .boolean false)]]), ("a", .float (Binary64.ofNat 2)), ("c", .null)]]

/- Rows that list their members in different orders: their types in the one order and in the other differ. -/
theorem inferReorderedOfUneven : (Value.array unevenRows).ungrouped = true ∧ (Value.array unevenRows).apart = true ∧
    infer (.array unevenRows) ≠ infer (.array unevenRows.reverse) ∧
    Reordered (infer (.array unevenRows)) (infer (.array unevenRows.reverse)) :=
  ⟨by decide, by decide, by decide +kernel, inferReordered (by decide) (by decide) (List.reverse_perm _).symm⟩

end Ty

end SymbolicQuery
