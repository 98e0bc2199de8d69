import SymbolicQuery.Proofs.Composition
import SymbolicQuery.Proofs.Retrieval
import SymbolicQuery.Proofs.Stages

/-! Grouping what was selected. Key and element are put over the selector and read back from each row. What
the selector stores below a conversion may not come back as it was; where it does, the groups are those
of the functions called on the rows. -/
namespace SymbolicQuery
open Results QueryError SymbolicQuery.Expr

def Expr.isConversion : Expr → Bool
  | .convert .. => true
  | _ => false

namespace Query

/-- On rows that are selected from items, every node of an expression that is read back through a
conversion is what the path comes to. -/
def ReadsBack (q : Query) (given rows : List Value) (r : Expr) : Prop :=
  ∀ n path, q.selector.Exposed r n → n.locate q.selector = some path → path.Converts →
    ∀ x ∈ given, ∀ v ∈ rows, q.selector.eval (Assignment.at q.source x) = .ok v →
      path.valueFrom v = n.eval (Assignment.at q.source x)

def GroupsReadBack (q : Query) (given rows : List Value) : Prop :=
  ∀ name id key element, .group name id key element ∈ q.operators →
    q.ReadsBack given rows key ∧ q.ReadsBack given rows element

/-- A value that an expression over the selector has on a row, when it is read back from the row. -/
def DrawnAs (q : Query) (r : Expr) (v w : Value) : Prop := ∃ f, FunctionFrom q.selector r f ∧ f.call [v] = .ok w

def Pairs (q : Query) (key element : Expr) : List Value → List (Value × Value) → Prop :=
  List.Forall₂ fun v pair => q.DrawnAs key v pair.1 ∧ q.DrawnAs element v pair.2

def Regroups (q : Query) (rows groups : List Value) : Prop :=
  ∃ name id key element pairs, .group name id key element ∈ q.operators ∧ q.Pairs key element rows pairs ∧
    (Value.group pairs).map Group.toValue = groups

structure Draws (q : Query) (r : Expr) (direct : Value → Except QueryError Value) : Prop where
  sound : r.Sound (OfSource q.source)
  composed : Composed q.selector r
  tracks : ∀ {x v}, q.source.itemType.Holds x → q.selector.eval (Assignment.at q.source x) = .ok v →
    Tracks Eq (r.eval (Assignment.at q.source x)) (direct v)

variable {root item item' : Expr} {q q' : Query} {c : Call} {calls : List Call} {input t : Ty}
  {given : List Value} {rows : Rows} {r key element : Expr} {k e : Value → Except QueryError Value}

theorem unconvertedReadBack {rows : List Value} (unconverted : ∀ {i t c o}, ¬ Spine q.selector (.convert i t c o)) :
    q.GroupsReadBack given rows := by
  have back : ∀ {r}, q.ReadsBack given rows r := fun n path _ found converts =>
    absurd converts ((locateDescends found).spine unconverted).2
  exact fun _ _ _ _ _ => ⟨back, back⟩

theorem Draws.put {p : Param} {body l : Expr} {f : Closed} (upon : FunctionOver input p body l)
    (once : l.Every NamesOnce) (selector : q.selector.Sound (OfSource q.source)) (same : input = q.selector.ty)
    (put : q.selector.Puts p body r) (is : f.lambda = ⟨[p], body⟩) : q.Draws r fun v => f.call [v] := by
  refine ⟨(putSound upon once selector same put).1, ?_, fun holds value =>
    putTracks upon once selector same put is holds value⟩
  obtain ⟨ty, written, i, rfl⟩ := upon
  exact puttingComposed put (written.sound (once.part List.mem_cons_self)) selector (same.symm.trans ty.symm)

theorem Draws.whole (selector : q.selector.Sound (OfSource q.source)) : q.Draws q.selector .ok :=
  ⟨selector, .stored .here, fun _ value v same => ⟨v, (Except.ok.inj same) ▸ value, rfl⟩⟩

theorem Draws.unresolveEnds (draws : q.Draws r k) :
    Ends (q.selector.unresolve r) (fun l => yields (q.selector.unresolve r) l) fun _ => False :=
  Query.unresolveEnds fun _ _ exposed absent => absurd absent (draws.composed.exposed exposed).located

structure Selected (q : Query) (given : List Value) (rows : Rows) : Prop where
  shape : rows.shape = .ofItem q.selector
  selector : q.selector.Sound (OfSource q.source)
  holds : ∀ x ∈ given, q.source.itemType.Holds x
  described : ∀ v ∈ rows.items, ∃ x ∈ given, q.selector.eval (Assignment.at q.source x) = .ok v

theorem Selected.upon (selected : q.Selected given rows) : rows.Over q.source := by
  refine ⟨?_, ?_, fun v inside => ?_⟩
  · rw [selected.shape]
    rfl
  · rw [selected.shape]
    exact selected.selector
  · obtain ⟨x, among, value⟩ := selected.described v inside
    rw [selected.shape]
    exact ⟨x, selected.holds x among, value⟩

theorem Draws.same {g : Closed} {v w : Value} (draws : q.Draws r k) (selected : q.Selected given rows)
    (made : FunctionFrom q.selector r g) (inside : v ∈ rows.items) (drawn : q.DrawnAs r v w) :
    g.call [v] = .ok w := by
  obtain ⟨x, among, value⟩ := selected.described v inside
  obtain ⟨f, other, called⟩ := drawn
  have accepted := (selected.selector.evalHolds (sourceKept (selected.holds x among)) value).accepts
  exact other.same made draws.sound accepted called

theorem Draws.drawn {v w : Value} (draws : q.Draws r k) (selected : q.Selected given rows)
    (back : q.ReadsBack given rows.items r) (inside : v ∈ rows.items) (called : k v = .ok w) :
    q.DrawnAs r v w := by
  obtain ⟨l, _, _, unresolved⟩ := draws.unresolveEnds.runs .start
  obtain ⟨f, _, made⟩ := (closeExpects unresolved).runs
  refine ⟨f, made, ?_⟩
  obtain ⟨x, among, value⟩ := selected.described v inside
  have leaves := sourceKept (selected.holds x among)
  obtain ⟨input, e', same, ty, read⟩ := made.reads
  have accepted := (selected.selector.evalHolds leaves value).accepts
  rw [← ty] at accepted
  rw [Closed.callOne (congrArg Lambda.params same) accepted, same]
  obtain ⟨_, evaluates, rfl⟩ := draws.tracks (selected.holds x among) value w called
  exact draws.composed.readsBack selected.selector draws.sound leaves value (if_pos rfl)
    (fun n path shown found converts => back n path shown found converts x among v inside value) read evaluates

theorem Selected.pairs {pairs : List (Value × Value)} (selected : q.Selected given rows)
    (keyDraws : q.Draws key k) (elementDraws : q.Draws element e)
    (keyBack : q.ReadsBack given rows.items key) (elementBack : q.ReadsBack given rows.items element)
    (direct : rows.items.mapM (fun v => return (← k v, ← e v)) = .ok pairs) :
    q.Pairs key element rows.items pairs := by
  refine forallMono (ofMapM (m := Except QueryError) direct) fun v inside pair made => ?_
  obtain ⟨kv, keyed, rest⟩ := okBind.mp made
  obtain ⟨ev, stored, last⟩ := okBind.mp rest
  cases last
  exact ⟨keyDraws.drawn selected keyBack inside keyed, elementDraws.drawn selected elementBack inside stored⟩

theorem Selected.groups {pairs : List (Value × Value)} (selected : q.Selected given rows)
    (keyDraws : q.Draws key k) (elementDraws : q.Draws element e)
    (drawn : q.Pairs key element rows.items pairs) :
    Ends (ResultOperator.groupRows rows key element) (fun groups => Value.group pairs = groups)
      fun _ => False := by
  unfold ResultOperator.groupRows
  dsimp only
  rw [selected.shape]
  refine endsBind (endsEnsure fun refused => ?_) fun _ _ =>
    endsBind keyDraws.unresolveEnds fun kl keyMade => endsBind (endsExcept (closeExpects keyMade)) fun kf keyFrom =>
    endsBind elementDraws.unresolveEnds fun el elementMade =>
    endsBind (endsExcept (closeExpects elementMade)) fun ef elementFrom => ?_
  · simp [RowsShape.ofItem] at refused
  · have along := (List.forall₂_and_left _ _).mpr ⟨fun _ h => h, drawn⟩
    refine endsBind (endsAlong along fun v pair ⟨inside, keyed, stored⟩ => ?_) ?_
    · have keyCalled := keyDraws.same selected keyFrom inside keyed
      have elementCalled := elementDraws.same selected elementFrom inside stored
      exact endsKnown keyCalled (endsKnown elementCalled (endsPure rfl))
    · intro pairs known
      subst known
      exact endsPure rfl

theorem Selected.groupsDrawn {groups : List Group} (selected : q.Selected given rows)
    (h : yields (ResultOperator.groupRows rows key element) groups) :
    ∃ pairs, q.Pairs key element rows.items pairs ∧ Value.group pairs = groups := by
  unfold ResultOperator.groupRows at h
  dsimp only at h
  rw [selected.shape] at h
  obtain ⟨_, _, h⟩ := ofBind h
  obtain ⟨kl, keyMade, h⟩ := ofBind h
  obtain ⟨kf, keyCloses, h⟩ := ofBind h
  obtain ⟨el, elementMade, h⟩ := ofBind h
  obtain ⟨ef, elementCloses, h⟩ := ofBind h
  obtain ⟨pairs, mapped, last⟩ := ofBind h
  refine ⟨pairs, (ofMapM mapped).imp fun v pair made => ?_, ofPure last⟩
  obtain ⟨kv, keyed, made⟩ := ofBind made
  obtain ⟨ev, stored, made⟩ := ofBind made
  cases ofPure made
  exact ⟨⟨kf, ⟨kl, keyMade, ofExcept keyCloses⟩, ofExcept keyed⟩,
    ⟨ef, ⟨el, elementMade, ofExcept elementCloses⟩, ofExcept stored⟩⟩

theorem Selected.groupRun {name : String} {id : Nat} {pairs : List (Value × Value)}
    (selected : q.Selected given rows) (keyDraws : q.Draws key k) (elementDraws : q.Draws element e)
    (drawn : q.Pairs key element rows.items pairs) :
    Ends ((ResultOperator.group name id key element).run (.rows rows))
      (fun o => o.value = .array ((Value.group pairs).map Group.toValue)) fun _ => False := by
  have typed := ResultOperator.groupRowsEnds selected.upon keyDraws.sound elementDraws.sound
  have grouped := (selected.groups keyDraws elementDraws drawn).and typed
  refine endsKnown rfl (endsBind grouped ?_)
  intro groups known
  obtain ⟨rfl, holds⟩ := known
  refine endsBind referenceEnds ?_
  intro n refers
  obtain ⟨i, rfl⟩ := refers
  refine endsBind (endsExcept (rowsExpects fun v inside => ?_)) fun rows' ⟨_, items⟩ =>
    endsPure (congrArg Value.array items)
  obtain ⟨g, member, rfl⟩ := List.mem_map.mp inside
  exact (Ty.Holds.grouping (holds g member).1 (holds g member).2).accepts

theorem Selected.runDrawn {name : String} {id : Nat} {o : Output} (selected : q.Selected given rows)
    (h : yields ((ResultOperator.group name id key element).run (.rows rows)) o) :
    ∃ pairs, q.Pairs key element rows.items pairs ∧
      o.value = .array ((Value.group pairs).map Group.toValue) := by
  obtain ⟨r, same, h⟩ := ofBind h
  cases ofExcept same
  obtain ⟨groups, made, h⟩ := ofBind h
  obtain ⟨_, _, h⟩ := ofBind h
  obtain ⟨rows', kept, last⟩ := ofBind h
  cases ofPure last
  obtain ⟨pairs, drawn, rfl⟩ := selected.groupsDrawn made
  exact ⟨pairs, drawn, congrArg Value.array (rowsMade (ofExcept kept)).2⟩

theorem executeAdd {op : ResultOperator} :
    (q.addOperator op).execute = q.execute >>= fun o => op.run o := by
  simp [execute, addOperator, List.foldlM_append]

theorem Trims.each {ops : List ResultOperator} {vs ws : List Value} (trims : Trims ops vs ws) :
    ∀ op ∈ ops, ∃ us us', Keeps op us us' := by
  induction trims with
  | nil => simp
  | snoc _ keeps ih =>
    intro op inside
    rcases List.mem_append.mp inside with before | last
    · exact ih op before
    · cases List.mem_singleton.mp last
      exact ⟨_, _, keeps⟩

theorem Mirrors.regroups {name : String} {id : Nat} {out groups : List Value}
    (mirrors : Mirrors calls q q.selector given out) (stands : Stands root t q q.selector) (has : q.HasItems given)
    (keyDraws : q.Draws key k) (elementDraws : q.Draws element e) (start : Supply) :
    (∃ o last, (q.addOperator (.group name id key element)).execute.run start = (.ok o, last) ∧
      o.value = .array groups) ↔ (q.addOperator (.group name id key element)).Regroups out groups := by
  have before := mirrors.execute stands has
  constructor
  · intro ends
    obtain ⟨o, last, run, value⟩ := ends
    have made : yields (q.addOperator (.group name id key element)).execute o := ⟨start, last, run⟩
    rw [executeAdd] at made
    obtain ⟨_, first, made⟩ := ofBind made
    obtain ⟨rows, rfl, shape, rfl, described⟩ := before.1 _ first
    have selected : q.Selected given rows := ⟨shape, stands.selector, has.1, described⟩
    obtain ⟨pairs, drawn, same⟩ := selected.runDrawn made
    exact ⟨name, id, key, element, pairs, List.mem_append_right _ List.mem_cons_self, drawn,
      Value.array.inj (same.symm.trans value)⟩
  · intro regroups
    obtain ⟨name', id', key', element', pairs, member, drawn, rfl⟩ := regroups
    have same : ResultOperator.group name' id' key' element' = .group name id key element := by
      rcases List.mem_append.mp member with trimmed | last
      · obtain ⟨_, trims, _⟩ := mirrors.values
        obtain ⟨_, _, keeps⟩ := trims.each _ trimmed
        cases keeps
      · exact List.mem_singleton.mp last
    cases same
    have ends : Ends (q.addOperator (.group name id key element)).execute
        (fun o => o.value = .array ((Value.group pairs).map Group.toValue)) fun _ => False := by
      rw [executeAdd]
      refine endsBind before ?_
      intro o left
      obtain ⟨rows, rfl, shape, rfl, described⟩ := left
      have selected : q.Selected given rows := ⟨shape, stands.selector, has.1, described⟩
      exact selected.groupRun keyDraws elementDraws drawn
    exact ends.runs start

theorem Stands.trimmed {vs ws : List Value} (stands : Stands root input q item) (trims : Trims q.operators vs ws) :
    input.itemType = item.ty := by
  rcases stands.operators with ⟨_, _, _, same⟩ | ⟨_, live, op, rest, ops, _, scalar⟩
  · exact same
  · obtain ⟨_, _, keeps⟩ := trims.each op (ops ▸ List.mem_append_right _ List.mem_cons_self)
    cases keeps <;> exact scalar.elim

theorem groupAdds {vs out : List Value} (selector : q.selector.Sound (OfSource q.source))
    (same : input.itemType = q.selector.ty) (adds : c.Adds input q q.selector t q' item') (group : c.stage = .group)
    (once : ∀ a ∈ c.args, a.Every NamesOnce) (called : c.onValues vs = .ok out) :
    ∃ name id key element k e pairs, q' = q.addOperator (.group name id key element) ∧ q.Draws key k ∧
      q.Draws element e ∧ vs.mapM (fun v => return (← k v, ← e v)) = .ok pairs ∧
      out = (Value.group pairs).map Group.toValue := by
  cases adds with
  | group upon put =>
    obtain ⟨f, made, rest⟩ := okBind.mp called
    obtain ⟨_, stored, rest⟩ := okBind.mp rest
    obtain ⟨pairs, mapped, last⟩ := okBind.mp rest
    cases last
    cases stored
    have key := Draws.put upon (once _ List.mem_cons_self) selector same put (Call.functionIs made rfl upon)
    exact ⟨_, _, _, _, _, _, pairs, rfl, key, .whole selector, mapped, rfl⟩
  | groupElements upon put upon' put' =>
    obtain ⟨f, made, rest⟩ := okBind.mp called
    obtain ⟨_, stored, rest⟩ := okBind.mp rest
    obtain ⟨pairs, mapped, last⟩ := okBind.mp rest
    obtain ⟨f', made', same'⟩ := okBind.mp stored
    cases last
    cases same'
    have key := Draws.put upon (once _ List.mem_cons_self) selector same put (Call.functionIs made rfl upon)
    have element := Draws.put upon' (once _ (List.mem_cons_of_mem _ List.mem_cons_self)) selector same put'
      (Call.functionIs made' rfl upon')
    exact ⟨_, _, _, _, _, _, pairs, rfl, key, element, mapped, rfl⟩
  | _ => cases group

end Query

namespace Command
variable {text input : String} {js : List Json} {s : Supply} {chain : Expr} {q : Query}

/-- Selections, then calls that keep some rows, then a grouping. The query comes to the groups of the keys
and elements that the functions of the grouping give on the rows themselves, from every supply, exactly
if those are the groups of what is read back from the rows; and so they are where every node that is
read back through a conversion comes back as it was. -/
theorem groupsRunInStages {selects keeps : List Call} {grouping : Call} {rows out : List Value}
    (document : Json.read? input = some (.array js)) (asks : Asks text input s chain q)
    (calls : chain.unchain.2 = selects ++ keeps ++ [grouping]) (selected : selects ≠ [])
    (projects : ∀ c ∈ selects, c.stage = .project)
    (kept : ∀ c ∈ keeps, c.stage = .distinct ∨ c.stage = .take ∨ c.stage = .skip)
    (group : grouping.stage = .group) (once : chain.Every NamesOnce)
    (staged : (selects ++ keeps).foldlM (fun vs c => c.onValues vs) (Value.ofJsonItems js) = .ok rows)
    (grouped : grouping.onValues rows = .ok out) :
    (∀ start, (∃ o last, q.execute.run start = (.ok o, last) ∧ o.value = .array out) ↔ q.Regroups rows out) ∧
      (q.GroupsReadBack (Value.ofJsonItems js) rows → q.Regroups rows out) := by
  obtain ⟨root, item, all, t, built, same, within, has⟩ := asksBuilt document asks
  cases same.symm.trans calls
  have onceArgs : ∀ c ∈ selects ++ keeps ++ [grouping], ∀ a ∈ c.args, a.Every NamesOnce :=
    fun c inside a argument n node => once n (within c inside a argument n node)
  have onceBefore := fun c inside => onceArgs c (List.mem_append_left _ inside)
  have plain : ∀ c ∈ selects ++ keeps, c.stage ≠ .group := by
    intro c inside other
    rcases List.mem_append.mp inside with first | later
    · cases (projects c first).symm.trans other
    · rcases kept c later with same | same | same <;> cases same.symm.trans other
  obtain ⟨before, q₀, item₀, built₀, adds⟩ := built.last
  have has₀ : q₀.HasItems (Value.ofJsonItems js) := by
    obtain ⟨origin, source⟩ := Query.addsOrigin adds
    unfold Query.HasItems at has ⊢
    rw [← origin, ← source]
    exact has
  have stands := built₀.stands onceBefore
  have mirrors := built₀.mirrors onceBefore plain has₀.1 staged
  obtain ⟨_, trims, _⟩ := mirrors.values
  rcases mirrors.selector with rfl | ⟨unselected, _⟩
  · obtain ⟨name, id, key, element, k, e, pairs, rfl, keyDraws, elementDraws, direct, rfl⟩ :=
      Query.groupAdds stands.selector (stands.trimmed trims) adds group
        (onceArgs _ (List.mem_append_right _ List.mem_cons_self)) grouped
    refine ⟨mirrors.regroups stands has₀ keyDraws elementDraws, fun back => ?_⟩
    obtain ⟨keyBack, elementBack⟩ := back name id key element (List.mem_append_right _ List.mem_cons_self)
    obtain ⟨_, _, _, rows', rfl, shape, rfl, described⟩ := (mirrors.execute stands has₀).runs .start
    have chosen : q₀.Selected (Value.ofJsonItems js) rows' := ⟨shape, stands.selector, has₀.1, described⟩
    exact ⟨name, id, key, element, pairs, List.mem_append_right _ List.mem_cons_self,
      chosen.pairs keyDraws elementDraws keyBack elementBack direct, rfl⟩
  · -- the last selection is the selector
    obtain ⟨c, rest, rfl⟩ := List.exists_cons_of_ne_nil selected
    exact absurd (projects c List.mem_cons_self) (unselected c (List.mem_append_left _ List.mem_cons_self))

/- Rows that repeat are dropped, and the others grouped by a number that is computed from what they store. -/
theorem groupsRunInStagesOfHalves : ∃ chain q,
    Asks "$.select(x => new \x7b a = x, b = x * 2 \x7d).distinct().group_by(y => y.a % 2, z => z.b)"
      "[1, 2, 3, 1]" .start chain q ∧ ∀ start, ∃ o last, q.execute.run start = (.ok o, last) ∧
      o.value = .array [.grouping (.integer 1) [.integer 2, .integer 6], .grouping (.integer 0) [.integer 4]] := by
  let row (a b : Int64) : Value := .object [("a", .integer a), ("b", .integer b)]
  refine asksMeeting (fun js chain q => decide (chain.unchain.2.map Call.stage = [.project, .distinct, .group] ∧
      (∀ n ∈ chain.nodes, n.NamesOnce) ∧ (∀ n ∈ q.selector.nodes, n.isConversion = false) ∧
      (chain.unchain.2.take 2).foldlM (fun vs c => c.onValues vs) (Value.ofJsonItems js) =
        .ok [row 1 2, row 2 4, row 3 6] ∧
      ∀ c ∈ chain.unchain.2.drop 2, c.onValues [row 1 2, row 2 4, row 3 6] = .ok
        [.grouping (.integer 1) [.integer 2, .integer 6], .grouping (.integer 0) [.integer 4]]))
    (by decide +kernel) fun js chain q document asks meets => ?_
  obtain ⟨stages, once, unconverted, staged, grouped⟩ := of_decide_eq_true meets
  obtain ⟨select, rest, parted, project, stages⟩ := List.map_eq_cons_iff.mp stages
  obtain ⟨distinct, rest, rfl, second, stages⟩ := List.map_eq_cons_iff.mp stages
  obtain ⟨grouping, rest, rfl, group, stages⟩ := List.map_eq_cons_iff.mp stages
  cases List.map_eq_nil_iff.mp stages
  rw [parted] at staged grouped
  have plain : ∀ {i t c o}, ¬ Spine q.selector (.convert i t c o) := fun spine => by
    cases unconverted _ spine.node
  have calls : chain.unchain.2 = [select] ++ [distinct] ++ [grouping] := parted
  obtain ⟨exactly, enough⟩ := groupsRunInStages document asks calls (by simp) (by simpa using project)
    (by simpa using .inl second) group once staged (grouped grouping (by simp))
  exact fun start => (exactly start).mpr (enough (Query.unconvertedReadBack plain))

/- Two members of one node, the second after a conversion. The node is read back from the second, and so
the keys are not those of the rows. -/
theorem groupsMisread : ∃ chain q,
    Asks "$.select(x => new \x7b a = x, b = x as int \x7d).group_by(y => y.a)" "[1.5, 1.7]" .start chain q ∧
    ∃ js select grouping rows out o last, Json.read? "[1.5, 1.7]" = some (.array js) ∧
      chain.unchain.2 = [select, grouping] ∧ select.stage = .project ∧ grouping.stage = .group ∧
      chain.Every NamesOnce ∧ select.onValues (Value.ofJsonItems js) = .ok rows ∧
      grouping.onValues rows = .ok out ∧ q.execute.run .start = (.ok o, last) ∧ o.value ≠ .array out := by
  let row (a : Nat) : Value := .object [("a", .float (.ofRatio false a 10)), ("b", .integer 1)]
  let out := [Value.grouping (.float (.ofRatio false 15 10)) [row 15], .grouping (.float (.ofRatio false 17 10)) [row 17]]
  let merged := [Value.grouping (.float (.ofRatio false 1 1)) [row 15, row 17]]
  refine asksMeeting (fun js chain q => decide (chain.unchain.2.map Call.stage = [.project, .group] ∧
      (∀ n ∈ chain.nodes, n.NamesOnce) ∧
      (∀ c ∈ chain.unchain.2.take 1, c.onValues (Value.ofJsonItems js) = .ok [row 15, row 17]) ∧
      (∀ c ∈ chain.unchain.2.drop 1, c.onValues [row 15, row 17] = .ok out) ∧
      (q.execute.run .start).1.map Output.value = .ok (.array merged)))
    (by decide +kernel) fun js chain q document asks meets => ?_
  obtain ⟨stages, once, selected, grouped, run⟩ := of_decide_eq_true meets
  obtain ⟨select, rest, parted, project, stages⟩ := List.map_eq_cons_iff.mp stages
  obtain ⟨grouping, rest, rfl, group, stages⟩ := List.map_eq_cons_iff.mp stages
  cases List.map_eq_nil_iff.mp stages
  rw [parted] at selected grouped
  cases ran : q.execute.run .start with
  | mk result last =>
    rw [ran] at run
    cases result with
    | error e => cases run
    | ok o =>
      have value : o.value = .array merged := Except.ok.inj run
      refine ⟨js, select, grouping, _, out, o, last, document, parted, project, group, once,
        selected select (by simp), grouped grouping (by simp), rfl, fun same => ?_⟩
      have few : merged = out := Value.array.inj (value.symm.trans same)
      exact absurd (congrArg List.length few) (by simp [merged, out])

end Command

end SymbolicQuery
