import SymbolicQuery.Proofs.Enumerating
import SymbolicQuery.Proofs.Outcome
import SymbolicQuery.Proofs.ReadingBack

/-! References that cannot be read back. Reading back goes through the nodes that are not stored in the item, in order,
and ends at the first reference to a source that the item has no accessor for; so it fails exactly if there is one, with
the error that tells why. -/
namespace SymbolicQuery
open Results

namespace Expr
variable {item e n : Expr} {input : Param} {err : QueryError} {s : Source}

/-- The nodes that an item does not store, nor any node above them, in order. -/
def exposed (item e : Expr) : List Expr :=
  if (e.locate item).isSome then [] else e :: e.parts.attach.flatMap fun ⟨c, _⟩ => exposed item c
termination_by sizeOf e
decreasing_by exact partSize ‹_›

theorem exposedStored (stored : (e.locate item).isSome = true) : exposed item e = [] := by
  rw [exposed, if_pos stored]

theorem exposedOpen (absent : e.locate item = none) : exposed item e = e :: e.parts.flatMap (exposed item) := by
  rw [exposed, absent, List.flatMap_subtype (g := exposed item) fun c _ => rfl, List.unattach_attach]
  rfl

theorem exposedIff : n ∈ exposed item e ↔ e.locate item = none ∧ (n = e ∨ ∃ c ∈ e.parts, n ∈ exposed item c) := by
  cases absent : e.locate item with
  | none => simp only [exposedOpen absent, List.mem_cons, List.mem_flatMap, true_and]
  | some path => simp [exposedStored, absent]

theorem exposedBelow {k c : Expr} (outer : k ∈ exposed item e) (inside : c ∈ k.parts) (absent : c.locate item = none) :
    c ∈ exposed item e := by
  induction e using partsInduction with
  | step e ih =>
    obtain ⟨opened, rfl | ⟨d, part, outer⟩⟩ := exposedIff.mp outer
    · exact exposedIff.mpr ⟨opened, .inr ⟨c, inside, exposedIff.mpr ⟨absent, .inl rfl⟩⟩⟩
    · exact exposedIff.mpr ⟨opened, .inr ⟨d, part, ih d part outer⟩⟩

theorem memExposed : n ∈ exposed item e ↔ item.Exposed e n ∧ n.locate item = none := by
  constructor
  · intro inside
    induction e using partsInduction with
    | step e ih =>
      obtain ⟨opened, rfl | ⟨c, part, below⟩⟩ := exposedIff.mp inside
      · exact ⟨.root, opened⟩
      · obtain ⟨shown, absent⟩ := ih c part below
        exact ⟨shown.under opened part, absent⟩
  · rintro ⟨shown, absent⟩
    induction shown with
    | root => exact exposedIff.mpr ⟨absent, .inl rfl⟩
    | part _ opened inside ih => exact exposedBelow (ih opened) inside absent

def Accessible (item n : Expr) : Prop := ∃ input s l s', (n.accessor item input).run s = (.ok l, s')

def Addresses (item : Expr) (s : Source) : Prop := ∃ n ∈ item.referencesTo s, item.Accessible n

/-- What tells why a source is not addressed: that the item has no reference to it, or the accessor of the last one. -/
structure Offends (item : Expr) (s : Source) (err : QueryError) : Prop where
  unaddressed : ¬ item.Addresses s
  reason : item.referencesTo s = [] ∧ err = .unresolved s.itemName (.notInItem item.text) ∨
    ∃ n, (item.referencesTo s).getLast? = some n ∧
      ∀ input t, input.ty = item.ty → (n.accessor item input).run t = (.error err, t)

theorem accessibleIff : item.Accessible n ↔ ∃ path, n.pathTo item = .ok path := by
  constructor
  · rintro ⟨input, s, l, s', made⟩
    obtain ⟨path, _, _, found, _⟩ := accessorFollows ⟨s, s', made⟩
    exact ⟨path, found⟩
  · rintro ⟨path, found⟩
    have made : (n.accessor item ⟨0, "input", item.ty⟩).run ⟨0, 0, 0⟩ = _ := accessorRun rfl _
    rw [found] at made
    exact ⟨_, _, _, _, made⟩

theorem sourcePathEnds (item : Expr) (s : Source) :
    Expects (item.sourcePath s) (fun _ => item.Addresses s) (item.Offends s) := by
  rcases sourcePathCases item s with ⟨n, path, mentions, way, found⟩ | ⟨n, err, ⟨last, missed⟩, failed, same⟩ | ⟨none, same⟩
  · rw [found]
    exact expectsOk ⟨n, mentionsIff.mpr mentions, accessibleIff.mpr ⟨path, way⟩⟩
  · rw [same]
    refine expectsError ⟨fun ⟨k, inside, accessible⟩ => ?_, .inr ⟨n, last, fun input t same => ?_⟩⟩
    · obtain ⟨_, absent⟩ := missed k inside
      obtain ⟨_, found⟩ := accessibleIff.mp accessible
      cases found.symm.trans absent
    · rw [accessorRun same, failed]
  · rw [same]
    refine expectsError ⟨fun ⟨k, inside, _⟩ => ?_, .inl ⟨none, rfl⟩⟩
    rw [none] at inside
    cases inside

def offence? (item n : Expr) : Option QueryError := n.asSource?.bind fun s =>
  match item.sourcePath s with
  | .ok _ => none
  | .error err => some err

def firstOffence? (item e : Expr) : Option QueryError := (exposed item e).findSome? (offence? item)

theorem offenceStored (stored : (e.locate item).isSome = true) : firstOffence? item e = none := by
  rw [firstOffence?, exposedStored stored]
  rfl

theorem offenceOpen (absent : e.locate item = none) : firstOffence? item e =
    (offence? item e).or (e.parts.findSome? (firstOffence? item)) := by
  have below : (e.parts.flatMap (exposed item)).findSome? (offence? item) = e.parts.findSome? (firstOffence? item) := by
    rw [← List.head?_filterMap, List.filterMap_flatMap, List.head?_flatMap]
    simp only [List.head?_filterMap]
    rfl
  rw [firstOffence?, exposedOpen absent, List.findSome?_cons, below]
  cases offence? item e <;> rfl

theorem offenceReference {i : Nat} : offence? item (.reference i s) = none ↔ item.Addresses s := by
  have ends := sourcePathEnds item s
  simp only [offence?, asSource?, Option.bind_some]
  cases found : item.sourcePath s with
  | ok path => exact iff_of_true rfl (ends.1 path found)
  | error err => exact iff_of_false (fun none => by cases none) (ends.2 err found).unaddressed

theorem offenceSource (offence : offence? item n = some err) : ∃ i s, n = .reference i s ∧ item.Offends s err := by
  cases n with
  | reference i s =>
    have ends := sourcePathEnds item s
    simp only [offence?, asSource?, Option.bind_some] at offence
    cases found : item.sourcePath s with
    | ok path =>
      rw [found] at offence
      cases offence
    | error err =>
      rw [found] at offence
      cases offence
      exact ⟨i, s, rfl, ends.2 _ found⟩
  | _ => cases offence

theorem readingBackEnds : Ends ((Pass.readingBack item input).run e) (fun _ => firstOffence? item e = none)
    (fun err => firstOffence? item e = some err) := by
  have plain {e : Expr} (other : ∀ i s, e ≠ .reference i s) : offence? item e = none := by
    cases e with
    | reference i s => exact absurd rfl (other i s)
    | _ => rfl
  induction e using partsInduction with
  | step e ih =>
    -- a node is entered before its parts, so its own offence comes first
    refine ⟨fun e' h => ?_, fun err h => ?_⟩
    · rcases Pass.readingBackStep h with ⟨path, _, back, _⟩ | ⟨absent, other, rebuilt⟩
      · rcases back with stored | ⟨absent, i, s, rfl, found⟩
        · exact offenceStored (by rw [stored]; rfl)
        · rw [offenceOpen absent, offenceReference.mpr ((sourcePathEnds item s).1 path found)]
          rfl
      · rw [offenceOpen absent, plain other, Option.none_or, List.findSome?_eq_none_iff]
        intro c inside
        obtain ⟨c', _, turned⟩ := partFrom (List.Forall₂.flip rebuilt.parts) inside
        exact (ih c inside).1 c' turned
    · rcases Pass.runFailsStep Pass.readingBackOnEntry h with refused | ⟨opened, below⟩
      · obtain ⟨absent, i, s, rfl, failed⟩ := Pass.readingBackRefuses refused
        rw [offenceOpen absent]
        simp only [offence?, asSource?, Option.bind_some, failed]
        rfl
      · obtain ⟨_, _, _, some, _⟩ | ⟨_, absent, other⟩ := Pass.readingBackEnters opened
        · cases some
        · rw [offenceOpen absent, plain other, Option.none_or]
          exact below.first (fun c inside c' => (ih c inside).1 c') fun c inside => (ih c inside).2 err

theorem noOffence : firstOffence? item e = none ↔
    ∀ i r, item.Exposed e (.reference i r) → (Expr.reference i r).locate item = none → item.Addresses r := by
  rw [firstOffence?, List.findSome?_eq_none_iff]
  constructor
  · intro none i r shown absent
    exact offenceReference.mp (none _ (memExposed.mpr ⟨shown, absent⟩))
  · intro all n inside
    obtain ⟨shown, absent⟩ := memExposed.mp inside
    cases n with
    | reference i r => exact offenceReference.mpr (all i r shown absent)
    | _ => rfl

theorem unresolveOffends : Ends (item.unresolve e) (fun l => firstOffence? item e = none ∧ l.body.references = [])
    (fun err => firstOffence? item e = some err) :=
  endsBind (endsLift (P := fun _ => True) fun _ _ => trivial) fun _ _ =>
    endsBind readingBackEnds.yielded fun _ ⟨clear, read⟩ => endsPure ⟨clear, Pass.readingBackClosed read⟩

/-- Reverse resolution succeeds exactly if the item addresses the source of every reference that is not stored or below a
stored node, and then leaves no reference to a source, so that the function can be called. Otherwise it fails at the first
reference whose source is not addressed, and the error tells why. -/
theorem unresolveSettles (item e : Expr) (s : Supply) :
    let run := (item.unresolve e).run s
    ((∃ l t, run = (.ok l, t)) ↔ ∀ i r, item.Exposed e (.reference i r) → (Expr.reference i r).locate item = none →
      item.Addresses r) ∧
    (∀ l t, run = (.ok l, t) → l.body.references = [] ∧ ∃ f, l.close = .ok f ∧ f.lambda = l) ∧
    ∀ err t, run = (.error err, t) → ∃ before i r after, exposed item e = before ++ .reference i r :: after ∧
      (∀ j q, .reference j q ∈ before → item.Addresses q) ∧ item.Offends r err := by
  intro run
  have ends : Ends (item.unresolve e) _ _ := unresolveOffends
  cases outcome : run with
  | mk result t =>
    cases result with
    | ok l =>
      obtain ⟨clear, closed⟩ := ends.1 l ⟨s, t, outcome⟩
      refine ⟨iff_of_true ⟨l, t, rfl⟩ (noOffence.mp clear), fun l' t' same => ?_, fun err t' same => ?_⟩
      · cases same
        exact ⟨closed, Lambda.closeOf closed⟩
      · cases same
    | error err =>
      have failed := ends.2 err ⟨s, t, outcome⟩
      refine ⟨iff_of_false (fun ⟨_, _, same⟩ => by cases same) fun all => ?_, fun l t' same => ?_, fun err' t' same => ?_⟩
      · cases failed.symm.trans (noOffence.mpr all)
      · cases same
      · cases same
        obtain ⟨before, n, after, split, offence, others⟩ := List.findSome?_eq_some_iff.mp failed
        obtain ⟨i, r, rfl, offends⟩ := offenceSource offence
        exact ⟨before, i, r, after, split, fun j q inside => offenceReference.mp (others _ inside), offends⟩

end Expr

end SymbolicQuery
