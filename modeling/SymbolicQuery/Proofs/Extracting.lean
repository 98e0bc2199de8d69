import SymbolicQuery.Proofs.Enumerating
import SymbolicQuery.Proofs.Retrieval

/-! What accessors extract. At the end of a path stands the value that the tree stores there. That is the value of the
node, with one exception: the construction under bindings has the place of the node that completes it, so its accessor
gives the completed object. -/
namespace SymbolicQuery
open Results

namespace Expr
variable {full n whole : Expr} {path : Path} {a b : Assignment} {v w : Value}

theorem Lands.completes (lands : Lands full path n whole) : whole = n ∨ ∃ i t bs, whole = .populate i t n bs := by
  cases lands with
  | base => exact .inr ⟨_, _, _, rfl⟩
  | here | field | binding | back => exact .inl rfl

theorem Lands.stands (readable : full.Readable) (lands : Lands full path n whole) (value : whole.eval a = .ok w) :
    StandsFor a full n w := by
  cases lands with
  | base outer => exact .inr ⟨_, _, _, (outer.descends.spine readable.unconverted).1, value⟩
  | here | field | binding | back => exact .inl value

theorem landsReads (readable : full.Readable) (evaluates : full.eval a = .ok v) (lands : Lands full path n whole) :
    ∃ w, path.valueFrom v = .ok w ∧ whole.eval a = .ok w := by
  induction lands with
  | here => exact ⟨v, rfl, evaluates⟩
  | field outer inside _ ih =>
    obtain ⟨w, reached, value⟩ := ih
    have spine := (outer.descends.spine readable.unconverted).1
    obtain ⟨u, stored, read⟩ := (outer.stands readable value).argument readable spine inside
    refine ⟨u, ?_, stored⟩
    rw [Path.valueSnoc, reached]
    exact read
  | base outer ih =>
    obtain ⟨w, reached, value⟩ := ih
    exact ⟨w, reached, (outer.stands readable value).exact readable.notBare⟩
  | binding outer inside _ ih =>
    obtain ⟨w, reached, value⟩ := ih
    have spine := (outer.descends.spine readable.unconverted).1
    have populated := (outer.stands readable value).exact readable.notBare
    obtain ⟨u, stored, read⟩ := populateReads populated (readable.once spine).stores inside
    refine ⟨u, ?_, stored⟩
    rw [Path.valueSnoc, reached]
    exact read
  | back outer _ _ => exact (readable.unconverted (outer.descends.spine readable.unconverted).1).elim

def straight (e : Expr) : Bool :=
  match e with
  | .populate _ _ (.construct ..) _ => e.NamesOnce
  | .populate .. | .convert .. => false
  | _ => e.NamesOnce

theorem readableOf (each : full.nodes.all straight = true) : full.Readable := by
  have each {n : Expr} (inside : n ∈ full.nodes) : n.straight = true := List.all_eq_true.mp each n inside
  refine ⟨fun {n} bare => ?_, fun spine => ?_, fun {n} spine => ?_⟩
  · obtain ⟨i, t, bs, inside⟩ := bare
    have here := each inside
    cases n with
    | construct => exact ⟨_, _, _, _, rfl⟩
    | _ => cases here
  · cases each spine.node
  · have here := each spine.node
    cases n with
    | populate i t base bs =>
      cases base with
      | construct => exact of_decide_eq_true here
      | _ => cases here
    | convert => cases here
    | _ => exact of_decide_eq_true here

theorem completedValue (completes : whole = n ∨ ∃ i t bs, whole = .populate i t n bs) (value : whole.eval a = .ok w) :
    ∃ u, n.eval a = .ok u ∧ (u = w ↔ whole = n ∨ ∃ i t bs fields, whole = .populate i t n bs ∧ u = .object fields ∧
      evalBindings a fields bs = .ok fields) := by
  rcases completes with rfl | ⟨i, t, bs, rfl⟩
  · exact ⟨w, value, iff_of_true rfl (.inl rfl)⟩
  · obtain ⟨fields, after, under, stores, rfl⟩ := populateValue value
    refine ⟨_, under, fun same => ?_, fun unchanged => ?_⟩
    · cases same
      exact .inr ⟨i, t, bs, fields, rfl, rfl, stores⟩
    · rcases unchanged with same | ⟨_, _, _, _, same, object, kept⟩
      · exact Except.ok.inj (under.symm.trans (same ▸ value))
      · cases same
        cases object
        exact congrArg _ (Except.ok.inj (kept.symm.trans stores))

/-- On the value of a readable tree, the function for a node gives the value of the node that is whole at the last of its
places. That is the value of the searched node itself exactly if the place is not the one under bindings, or these
bindings leave the constructed object as it is. -/
theorem accessorExtracts {searched full : Expr} {input : Param} {a b : Assignment} {v : Value} {l : Lambda}
    {s s' : Supply} (readable : full.Readable) (evaluates : full.eval a = .ok v) (bound : b.param input = some v)
    (made : (searched.accessor full input).run s = (.ok l, s')) :
    ∃ body path whole u w, l = ⟨[input], body⟩ ∧ (places searched full).getLast? = some (path, whole) ∧
      (whole = searched ∨ ∃ i t bs, whole = .populate i t searched bs) ∧
      searched.eval a = .ok u ∧ whole.eval a = .ok w ∧ body.eval b = .ok w ∧
      (u = w ↔ whole = searched ∨ ∃ i t bs fields, whole = .populate i t searched bs ∧ u = .object fields ∧
        evalBindings a fields bs = .ok fields) := by
  obtain ⟨path, body, i, found, rfl, follows⟩ := accessorFollows ⟨s, s', made⟩
  obtain ⟨whole, last⟩ := foundLast found
  have lands := placesLand (List.mem_of_getLast? last)
  obtain ⟨w, reached, value⟩ := landsReads readable evaluates lands
  obtain ⟨u, own, iff⟩ := completedValue lands.completes value
  refine ⟨body, path, whole, u, w, rfl, last, lands.completes, own, value, ?_, iff⟩
  rw [Path.followEval follows]
  simp only [eval, bound]
  exact reached

/- The reference is found in the construction and again among the bindings, from where it is read. -/
theorem accessorExtractsLast :
    let v : Member := ⟨"v", "Row", .int, .property⟩
    let w : Member := ⟨"w", "Row", .int, .property⟩
    let type : ObjectType := ⟨"Row", [v, w], false⟩
    let reference := Expr.reference 0 ⟨0, "s", .int⟩
    let full := Expr.populate 2 type (.construct 1 type [v] [reference]) [.assign w reference]
    let input : Param := ⟨0, "p", full.ty⟩
    let a := Assignment.empty.bindSource ⟨0, "s", .int⟩ (.integer 7)
    let value := Value.object [("v", .integer 7), ("w", .integer 7)]
    full.Readable ∧ full.eval a = .ok value ∧ (Assignment.empty.bind input value).param input = some value ∧
      ∃ l s', (reference.accessor full input).run ⟨3, 1, 1⟩ = (.ok l, s') ∧
      ∃ body path whole u r, l = ⟨[input], body⟩ ∧ (places reference full).getLast? = some (path, whole) ∧
        (whole = reference ∨ ∃ i t bs, whole = .populate i t reference bs) ∧
        reference.eval a = .ok u ∧ whole.eval a = .ok r ∧ body.eval (Assignment.empty.bind input value) = .ok r ∧
        (u = r ↔ whole = reference ∨ ∃ i t bs fields, whole = .populate i t reference bs ∧ u = .object fields ∧
          evalBindings a fields bs = .ok fields) := by
  intro v w type reference full input a value
  have readable : full.Readable := readableOf (by decide)
  have bound : (Assignment.empty.bind input value).param input = some value := by simp [Assignment.bind]
  have succeeds : ((reference.accessor full input).run ⟨3, 1, 1⟩).1.isOk = true := by decide +kernel
  obtain ⟨l, s', made⟩ := Build.okRun succeeds
  have evaluates : full.eval a = .ok value := rfl
  exact ⟨readable, evaluates, bound, l, s', made, accessorExtracts readable evaluates bound made⟩

/- The accessor of the construction under a binding gives the object that the binding has completed. -/
theorem accessorExtractsCompleted :
    let v : Member := ⟨"v", "Row", .int, .property⟩
    let w : Member := ⟨"w", "Row", .int, .property⟩
    let type : ObjectType := ⟨"Row", [v, w], false⟩
    let base := Expr.construct 1 type [v] [.constant 0 .int (.integer 1)]
    let full := Expr.populate 3 type base [.assign w (.constant 2 .int (.integer 2))]
    let input : Param := ⟨0, "input", full.ty⟩
    let value := Value.object [("v", .integer 1), ("w", .integer 2)]
    ∃ l s', full.Made ∧ full.Readable ∧ full.eval .empty = .ok value ∧
      (base.accessor full input).run ⟨4, 1, 0⟩ = (.ok l, s') ∧
      ¬ l.body.eval (Assignment.empty.bind input value) = base.eval .empty := by
  intro v w type base full input value
  have integer (i : Nat) (n : Int64) : (Expr.constant i .int (.integer n)).Made :=
    .integer (n := n) ⟨⟨i, 0, 0⟩, ⟨i + 1, 0, 0⟩, rfl⟩
  have constructs : yields (Build.construct type [v] [.constant 0 .int (.integer 1)]) base :=
    ⟨⟨1, 0, 0⟩, ⟨2, 0, 0⟩, rfl⟩
  have populates : yields (Build.populate base [.assign w (.constant 2 .int (.integer 2))]) full :=
    ⟨⟨3, 0, 0⟩, ⟨4, 0, 0⟩, rfl⟩
  have constructed : base.Made := .construct (List.forall_mem_singleton.mpr (integer 0 1)) constructs
  have each : ∀ c ∈ ([.assign w (.constant 2 .int (.integer 2))] : List Binding).flatMap BindingOf.parts, c.Made :=
    List.forall_mem_singleton.mpr (integer 2 2)
  have made : full.Made := .populate constructed each populates
  have differ : ¬ Except.ok (ε := QueryError) value = .ok (.object [("v", .integer 1)]) := by simp [value]
  exact ⟨⟨[input], .parameter 4 input⟩, ⟨5, 1, 0⟩, made, readableOf (by decide), rfl, rfl, differ⟩

end Expr

end SymbolicQuery
