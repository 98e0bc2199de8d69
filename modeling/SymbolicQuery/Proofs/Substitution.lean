import SymbolicQuery.Proofs.Agreement
import SymbolicQuery.Proofs.Passing
import SymbolicQuery.Proofs.Typing

/-! An expression put for a parameter. Reads of what the expression constructs are folded on the way;
types stay as they are, and so does every value, since a construction stores each argument under a
name of its own. Values need no types for that: whatever the body and the expression are, as long as they assign no
member name twice. -/
namespace SymbolicQuery
open Results

namespace Expr

theorem foldReadCases (n : Expr) : n.foldRead = n ∨ ∃ i o m arg,
    (n = .access i o m ∨ n = .getter i o m) ∧ o.argumentFor? m = some arg ∧ n.foldRead = arg := by
  cases n with
  | access i o m | getter i o m =>
    unfold foldRead
    cases found : o.argumentFor? m with
    | none => exact .inl (by simp [found])
    | some arg => exact .inr ⟨i, o, m, arg, by simp, found, by simp [found]⟩
  | _ => exact .inl rfl

variable {p : Param} {r e e' n : Expr} {leaf : Expr → Prop}

theorem puttingStep (h : yields ((Pass.putting p r).run e) e') :
    (OfParam p e ∧ e' = r) ∨ (¬ OfParam p e ∧
      ∃ n, Rebuilt (fun c c' => yields ((Pass.putting p r).run c) c') e n ∧ e' = n.foldRead) := by
  rcases Pass.runStep h with entered | ⟨opened, n, rebuilt, left⟩
  · have replaced := ofPure entered
    split at replaced
    · split at replaced
      · rename_i i q same
        cases replaced
        exact .inl ⟨⟨i, same ▸ rfl⟩, rfl⟩
      · cases replaced
    · cases replaced
  · have kept := ofPure opened
    refine .inr ⟨?_, n, rebuilt, (ofPure left).symm⟩
    intro replaced
    obtain ⟨i, rfl⟩ := replaced
    simp at kept

theorem Sound.argument {o arg : Expr} {m : Member} (sound : o.Sound leaf)
    (found : o.argumentFor? m = some arg) : arg.Sound leaf ∧ arg.ty = m.ty := by
  refine ⟨sound.part (argumentPart found), ?_⟩
  have typed := sound.here.1
  rcases argumentPlace found with ⟨i, t, ms, es, rfl, inside⟩ | ⟨i, t, base, bs, rfl, inside⟩
  · cases typed with
    | construct each => exact ((List.forall₂_iff_zip.mp each).2 inside).symm
  · cases typed

theorem Sound.foldRead (sound : n.Sound leaf) : n.foldRead.Sound leaf ∧ n.foldRead.ty = n.ty := by
  rcases foldReadCases n with same | ⟨i, o, m, arg, reads, found, folded⟩
  · rw [same]
    exact ⟨sound, rfl⟩
  · have object : o.Sound leaf := sound.part (by rcases reads with rfl | rfl <;> exact List.mem_cons_self)
    obtain ⟨inner, ty⟩ := object.argument found
    rw [folded]
    exact ⟨inner, ty.trans (by rcases reads with rfl | rfl <;> rfl)⟩

theorem foldReadEvery {P : Expr → Prop} (every : n.Every P) : n.foldRead.Every P := by
  rcases foldReadCases n with same | ⟨i, o, m, arg, reads, found, folded⟩
  · rwa [same]
  · have object : o.Every P := every.part (by rcases reads with rfl | rfl <;> exact List.mem_cons_self)
    rw [folded]
    exact object.part (argumentPart found)

theorem Rebuilt.namesOnce {R : Expr → Expr → Prop} (same : Rebuilt R e n) (typed : e.Typed leaf)
    (once : e.NamesOnce) : n.NamesOnce := by
  cases typed <;> cases same <;> exact once

theorem Sound.rebuilt {R : Expr → Expr → Prop} {further : Expr → Prop} (sound : e.Sound leaf)
    (same : Rebuilt R e n) (parts : ∀ c ∈ e.parts, ∀ c', R c c' → c'.Sound further ∧ c'.ty = c.ty)
    (leaves : leaf e → further n) : n.Sound further ∧ n.ty = e.ty := by
  have types : Rebuilt (fun c c' => c'.ty = c.ty) e n :=
    same.mono fun c inside c' related => (parts c inside c' related).2
  refine ⟨everyIff.mpr ⟨⟨sound.here.1.rebuilt types leaves, same.namesOnce sound.here.1 sound.here.2⟩,
    fun c' inside => ?_⟩, types.ty⟩
  obtain ⟨c, part, related⟩ := partFrom same.parts inside
  exact (parts c part c' related).1

theorem puttingSound (h : yields ((Pass.putting p r).run e) e') (body : e.Sound (OfParam p))
    (item : r.Sound leaf) (ty : r.ty = p.ty) : e'.Sound leaf ∧ e'.ty = e.ty := by
  induction e using partsInduction generalizing e' with
  | step e ih =>
    rcases puttingStep h with ⟨⟨i, rfl⟩, rfl⟩ | ⟨other, n, rebuilt, rfl⟩
    · exact ⟨item, ty⟩
    · obtain ⟨sound, same⟩ := body.rebuilt rebuilt
        (fun c inside c' made => ih c inside made (body.part inside)) (fun leaf => absurd leaf other)
      exact ⟨sound.foldRead.1, sound.foldRead.2.trans same⟩

theorem Rebuilt.storedNames {R : Expr → Expr → Prop} (same : Rebuilt R e n) : n.storedNames = e.storedNames := by
  cases same with
  | @populate _ _ _ _ _ bs bs' _ bindings =>
    change bs'.map (·.member.name) = bs.map (·.member.name)
    induction bindings with
    | nil => rfl
    | cons head _ ih => cases head <;> simp only [List.map_cons, ih] <;> rfl
  | _ => rfl

theorem Rebuilt.storesOnce {R : Expr → Expr → Prop} (same : Rebuilt R e n)
    (parts : ∀ c ∈ e.parts, ∀ c', R c c' → c'.Every StoresOnce) (once : e.StoresOnce) : n.Every StoresOnce := by
  refine everyIff.mpr ⟨?_, fun c' inside => ?_⟩
  · rw [StoresOnce, same.storedNames]
    exact once
  · obtain ⟨c, part, related⟩ := partFrom same.parts inside
    exact parts c part c' related

theorem puttingStoresOnce (h : yields ((Pass.putting p r).run e) e') (body : e.Every StoresOnce)
    (item : r.Every StoresOnce) : e'.Every StoresOnce := by
  induction e using partsInduction generalizing e' with
  | step e ih =>
    rcases puttingStep h with ⟨_, rfl⟩ | ⟨_, n, rebuilt, rfl⟩
    · exact item
    · exact foldReadEvery (rebuilt.storesOnce (fun c inside c' made => ih c inside made (body.part inside)) body.here)

variable {a b : Assignment} {v w : Value}

theorem foldReadEval (once : n.Every StoresOnce) (h : n.eval a = .ok w) : n.foldRead.eval a = .ok w := by
  rcases foldReadCases n with same | ⟨i, o, m, arg, reads, found, folded⟩
  · rw [same]
    exact h
  · have object : o.Every StoresOnce := once.part (by rcases reads with rfl | rfl <;> exact List.mem_cons_self)
    have read : (do let u ← o.eval a; u.read m.name) = Except.ok w := by
      rcases reads with rfl | rfl <;> (unfold eval at h; exact h)
    obtain ⟨u, value, read⟩ := okBind.mp read
    obtain ⟨x, stored, got⟩ := argumentReads found object.here value
    cases read.symm.trans got
    rw [folded]
    exact stored

def Agrees (a b : Assignment) : Expr → Prop
  | .parameter _ q => a.param q = b.param q
  | .reference _ s => a.source s.id = b.source s.id
  | _ => True

/-- An expression put for a parameter stands for its value: where the body has a value on the value
of the expression, so has the result, and it is the same. -/
theorem puttingValue (h : yields ((Pass.putting p r).run e) e') (body : e.Every StoresOnce)
    (item : r.Every StoresOnce) (agree : e.Every fun n => OfParam p n ∨ n.Agrees b a)
    (bound : b.param p = some v) (value : r.eval a = .ok v) (evaluates : e.eval b = .ok w) :
    e'.eval a = .ok w := by
  induction e using partsInduction generalizing e' w with
  | step e ih =>
    rcases puttingStep h with ⟨⟨i, rfl⟩, rfl⟩ | ⟨other, n, rebuilt, rfl⟩
    · simp only [eval, bound] at evaluates
      cases evaluates
      exact value
    · have once : n.Every StoresOnce := rebuilt.storesOnce
        (fun c inside c' made => puttingStoresOnce made (body.part inside) item) body.here
      have leaf : e.Agrees b a := agree.here.resolve_left other
      refine foldReadEval once ?_
      -- parts of the body that are not evaluated may have no value, so the two sides agree one way only
      refine evalRebuilt (A := .atLeast) (a := b) (rebuilt.mono fun c inside c' made w value =>
        ih c inside made (body.part inside) (agree.part inside) value) ?_ ?_ w evaluates
      · rintro i q rfl
        exact leaf
      · rintro i s rfl
        exact leaf

theorem Sound.storesOnce (sound : e.Sound leaf) : e.Every StoresOnce := fun n inside => (sound n inside).2.stores

theorem puttingEval (h : yields ((Pass.putting p r).run e) e') (body : e.Sound (OfParam p))
    (item : r.Sound leaf) (bound : b.param p = some v) (value : r.eval a = .ok v)
    (evaluates : e.eval b = .ok w) : e'.eval a = .ok w := by
  refine puttingValue h body.storesOnce item.storesOnce (fun n inside => ?_) bound value evaluates
  cases (body n inside).1 with
  | parameter known | reference known => exact .inl known
  | _ => exact .inr trivial

end Expr

namespace Lambda
variable {l : Lambda} {p : Param} {item e : Expr} {a : Assignment} {v w : Value} {start last : Supply}

theorem resolvePuts (one : l.params = [p]) (resolved : yields (l.resolve item) e) :
    yields ((Pass.putting p item).run l.body) e := by
  unfold resolve at resolved
  rw [one] at resolved
  obtain ⟨_, _, put⟩ := ofBind resolved
  exact ofLiftT put

/-- A function over the description of an item means what it means on the item: where the description has a value, and
the function has a value on it, the resolved function has that value too. -/
theorem resolveKeepsMeaning (one : l.params = [p]) (resolved : (l.resolve item).run start = (.ok e, last))
    (bodyOnce : l.body.Every Expr.NamesOnce) (itemOnce : item.Every Expr.NamesOnce) (value : item.eval a = .ok v)
    (evaluates : l.body.eval (a.bind p v) = .ok w) : e.eval a = .ok w := by
  have put := resolvePuts one ⟨start, last, resolved⟩
  refine Expr.puttingValue put (fun n inside => (bodyOnce n inside).stores) (fun n inside => (itemOnce n inside).stores)
    (fun n _ => ?_) (if_pos rfl) value evaluates
  by_cases replaced : n.OfParam p
  · exact .inl replaced
  · refine .inr ?_
    cases n with
    | parameter i q => exact if_neg fun (same : q = p) => replaced ⟨i, same ▸ rfl⟩
    | reference => rfl
    | _ => trivial

/- A binding is read over a construction that reads the item, and multiplied by another parameter. -/
theorem resolveKeepsMeaningOfProduct :
    let s : Source := ⟨0, "x", .int⟩
    let pair : ObjectType := .ofShape [("a", .int), ("b", .int)]
    let item := Expr.construct 0 pair pair.members [.reference 1 s, .constant 2 .int (.integer 7)]
    let p : Param := ⟨0, "y", .object pair⟩
    let q : Param := ⟨1, "z", .int⟩
    let member name : Member := ⟨name, pair.name, .int, .property⟩
    let made := Expr.populate 3 pair (.construct 4 pair [member "a"] [.access 5 (.parameter 6 p) (member "a")])
      [.assign (member "b") (.access 7 (.parameter 8 p) (member "b"))]
    let l : Lambda := ⟨[p], .binary 9 .int .multiply (.access 10 made (member "b")) (.parameter 11 q)⟩
    let a := (Assignment.empty.bind q (.integer 3)).bindSource s (.integer 6)
    ∃ e last, (l.resolve item).run ⟨12, 2, 1⟩ = (.ok e, last) ∧ e.eval a = .ok (.integer 21) := by
  intro s pair item p q member made l a
  have succeeds : ((l.resolve item).run ⟨12, 2, 1⟩).1.isOk = true := by decide +kernel
  obtain ⟨e, last, resolved⟩ := Build.okRun succeeds
  have bodyOnce : ∀ n ∈ l.body.nodes, n.NamesOnce := by decide +kernel
  have itemOnce : ∀ n ∈ item.nodes, n.NamesOnce := by decide +kernel
  have value : item.eval a = .ok (.object [("a", .integer 6), ("b", .integer 7)]) := rfl
  exact ⟨e, last, resolved, resolveKeepsMeaning rfl resolved bodyOnce itemOnce value rfl⟩

end Lambda

end SymbolicQuery
