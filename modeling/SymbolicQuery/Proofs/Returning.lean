import SymbolicQuery.Proofs.Grammar
import SymbolicQuery.Proofs.Inference
import SymbolicQuery.Proofs.Soundness
import SymbolicQuery.Proofs.Stages

/-! The query of a root alone. It gives back the document that it is asked over, but for the whole numbers beyond 64
signed bits, which values hold as the floating-point numbers nearest to them. -/
namespace SymbolicQuery
open Results SymbolicQuery.Expr

namespace Json

def whole? : Json → Option Int
  | .whole n => some n
  | _ => none

theorem ofWhole {j : Json} {n : Int} (whole : j.whole? = some n) : j = .whole n := by
  cases j with
  | whole =>
    cases whole
    rfl
  | _ => cases whole

mutual

def narrowed : Json → Json
  | .whole n => if (int64? n).isSome then .whole n else .real (Binary64.ofInt n)
  | .array items => .array (narrowedItems items)
  | .object fields => .object (narrowedFields fields)
  | j => j

def narrowedItems : List Json → List Json
  | [] => []
  | j :: rest => j.narrowed :: narrowedItems rest

def narrowedFields : List (String × Json) → List (String × Json)
  | [] => []
  | (name, j) :: rest => (name, j.narrowed) :: narrowedFields rest

end

mutual

def fits : Json → Bool
  | .whole n => (int64? n).isSome
  | .array items => fitsItems items
  | .object fields => fitsFields fields
  | _ => true

def fitsItems : List Json → Bool
  | [] => true
  | j :: rest => j.fits && fitsItems rest

def fitsFields : List (String × Json) → Bool
  | [] => true
  | (_, j) :: rest => j.fits && fitsFields rest

end

mutual

theorem narrowedSame : (j : Json) → (j.narrowed = j ↔ j.fits = true)
  | .whole n => by cases known : (int64? n).isSome <;> simp [narrowed, fits, known]
  | .array items => by simp [narrowed, fits, narrowedItemsSame items]
  | .object fields => by simp [narrowed, fits, narrowedFieldsSame fields]
  | .null | .bool _ | .real _ | .string _ => by simp [narrowed, fits]

theorem narrowedItemsSame : (items : List Json) → (narrowedItems items = items ↔ fitsItems items = true)
  | [] => by simp [narrowedItems, fitsItems]
  | j :: rest => by simp [narrowedItems, fitsItems, narrowedSame j, narrowedItemsSame rest]

theorem narrowedFieldsSame : (fields : List (String × Json)) → (narrowedFields fields = fields ↔ fitsFields fields = true)
  | [] => by simp [narrowedFields, fitsFields]
  | (_, j) :: rest => by simp [narrowedFields, fitsFields, narrowedSame j, narrowedFieldsSame rest]

end

def Returns (j : Json) : Prop := (Value.ofJson j).toJson = j.narrowed

theorem scalarReturns {j : Json} (scalar : j.Scalar) : j.Returns := by
  unfold Returns Value.ofJson narrowed
  cases scalar with
  | @whole n low high =>
    cases known : int64? n with
    | some i =>
      have same : n = i.toInt := int64Eq.mp known
      simp [known, Value.toJson, same.symm]
    | none =>
      have finite : (Binary64.ofInt n).isFinite = true := Binary64.ofIntFinite (by omega)
      simp [known, Value.toJson, Value.realToJson, finite]
  | real finite => simp [Value.toJson, Value.realToJson, finite]
  | null | bool | string => simp [Value.toJson]

theorem returnsItems {items : List Json} (each : ∀ j ∈ items, j.Returns) :
    Value.toJsonItems (Value.ofJsonItems items) = narrowedItems items := by
  induction items with
  | nil => rfl
  | cons j rest ih =>
    obtain ⟨here, later⟩ := List.forall_mem_cons.mp each
    simp [Value.ofJsonItems, Value.toJsonItems, narrowedItems, ih later, here.symm]

theorem returnsFields {fields : List (String × Json)} (each : ∀ f ∈ fields, f.2.Returns) :
    Value.toJsonMembers (Value.ofJsonFields fields) = narrowedFields fields := by
  induction fields with
  | nil => rfl
  | cons f rest ih =>
    obtain ⟨here, later⟩ := List.forall_mem_cons.mp each
    simp [Value.ofJsonFields, Value.toJsonMembers, narrowedFields, ih later, here.symm]

theorem returnsArray {items : List Json} (each : ∀ j ∈ items, j.Returns) : Returns (.array items) := by
  simp [Returns, Value.ofJson, Value.toJson, narrowed, returnsItems each]

theorem returnsObject {fields : List (String × Json)} (each : ∀ f ∈ fields, f.2.Returns) :
    Returns (.object (Fields.ofList fields)) := by
  simp [Returns, Value.ofJson, Value.toJson, narrowed, returnsFields (Fields.eachOfList each)]

theorem readReturns {text : String} {j : Json} (read : read? text = some j) : j.Returns :=
  readKept ⟨fun _ => scalarReturns, fun _ => returnsArray, fun _ => returnsObject⟩ read

end Json

namespace Command
variable {input : String} {js : List Json} {s s' : Supply}

theorem parsingRuns {α : Type} {work : ExceptT ParseError Fresh α} {a : α} (run : work.run s = (.ok a, s')) :
    (parsing work).run s = (.ok a, s') := by
  show ((work.run s).1.mapError CommandError.parse, (work.run s).2) = _
  rw [run]
  rfl

theorem queryingRuns {α : Type} {work : Build α} {a : α} (run : work.run s = (.ok a, s')) :
    (querying work).run s = (.ok a, s') := by
  show ((work.run s).1.mapError CommandError.query, (work.run s).2) = _
  rw [run]
  rfl

theorem performs {α : Type} {work : Work α} {result : Except CommandError α} (run : work.run .start = (result, s')) :
    perform work = result := congrArg Prod.fst run

theorem rootTokens : Tokens.read "$" = .ok ⟨[(.dollar, 0)], 1⟩ := by
  have blank : Text.isBlank '$' = false := by decide +kernel
  have mark : Token.first 0 '$' [] = .ok (.dollar, 1) := rfl
  have last : Token.readFrom 1 [] = .ok ⟨[], 1⟩ := by
    unfold Token.readFrom
    rfl
  unfold Tokens.read
  rw [show "$".toList = ['$'] from rfl]
  unfold Token.readFrom
  simp only [blank, mark, Bool.false_eq_true, if_false]
  change (Token.readFrom 1 [] >>= fun ts => .ok { ts with pending := (.dollar, 0) :: ts.pending }) = _
  rw [last]
  rfl

theorem rootRead (types : List ObjectType) (root : Expr) (s : Supply) :
    (Expr.readChain types root "$").run s = (.ok root, s) := by
  unfold Expr.readChain Reading.all
  rw [rootTokens]
  rfl

theorem asksRoot (document : Json.read? input = some (.array js)) (s : Supply) :
    ∃ chain q s', (asked "$" input).run s = (.ok (chain, q), s') ∧ chain.unchain.2 = [] := by
  obtain ⟨start, s₁, rooted⟩ : ∃ start s₁, (root (some input)).run s = (.ok start, s₁) := by
    rw [rootRun document]
    exact constantRuns (Ty.inferCovers _ (Json.readApart document)).accepts s
  obtain ⟨i, t, -, rfl⟩ := rootHolds document rooted
  obtain ⟨q, s₂, built⟩ : ∃ q s₂, (Query.ofChain (.constant i (.sequence t) (.array (Value.ofJsonItems js)))).run s₁ =
      (.ok q, s₂) := ⟨_, _, rfl⟩
  refine ⟨.constant i (.sequence t) (.array (Value.ofJsonItems js)), q, s₂, ?_, rfl⟩
  unfold asked
  rw [Build.runThen rooted, Build.runThen (parsingRuns (rootRead _ _ _)), Build.runThen (queryingRuns built)]
  rfl

theorem rootExecutes {q : Query} {chain : Expr} (document : Json.read? input = some (.array js))
    (asks : Asks "$" input s chain q) (alone : chain.unchain.2 = []) (start : Supply) :
    ∃ o last, q.execute.run start = (.ok o, last) ∧ o.value = .array (Value.ofJsonItems js) := by
  obtain ⟨root, item, calls, t, built, same, -, has⟩ := asksBuilt document asks
  obtain rfl : calls = [] := same.symm.trans alone
  have mirrors := built.mirrors (fun _ none => by cases none) (fun _ none => by cases none) has.1 rfl
  have stands := built.stands fun _ none => by cases none
  obtain ⟨o, last, run, rows, rfl, _, items, _⟩ := (mirrors.execute stands has).runs start
  exact ⟨_, last, run, congrArg Value.array items⟩

theorem rootAnswers (document : Json.read? input = some (.array js)) (s : Supply) :
    ∃ s', (answer "$" (some input)).run s = (.ok (Json.array js).narrowed, s') := by
  obtain ⟨chain, q, s₁, asked, alone⟩ := asksRoot document s
  obtain ⟨o, s₂, run, value⟩ := rootExecutes document (congrArg Prod.fst asked) alone s₁
  refine ⟨s₂, ?_⟩
  have returns : (Value.array (Value.ofJsonItems js)).toJson = (Json.array js).narrowed := Json.readReturns document
  rw [answerRun, Build.runThen asked, Build.runThen (queryingRuns run), value, returns]
  rfl

theorem rootRefuses (unread : Json.read? input = none) (s : Supply) :
    (answer "$" (some input)).run s = (.error .json, s) := by
  unfold answer root
  simp only [valueOf, unread]
  rfl

def mixedText : String :=
  "[\x7b\"a\": [9223372036854775807, -2.5e-3, null], \"a b\": \x7b\x7d\x7d, [[true]], \"\", -9223372036854775808]"

/-- The root alone, over the text of an array with less than 128 brackets open at once, gives the array with its whole
numbers narrowed to what values hold. That is the array itself if and only if its whole numbers are of 64 signed bits.
A text with more open brackets is refused. -/
theorem rootReturns {d : Nat} (writes : Json.Writes input d (.array js)) :
    (d < 128 → ∀ s, ∃ s', (answer "$" (some input)).run s = (.ok (Json.array js).narrowed, s')) ∧
      (128 ≤ d → ∀ s, (answer "$" (some input)).run s = (.error .json, s)) ∧
      ((Json.array js).narrowed = .array js ↔ (Json.array js).fits = true) := by
  have read := Json.writesRead writes
  refine ⟨fun room => rootAnswers (read.trans (if_pos room)), fun deep => rootRefuses (read.trans (if_neg ?_)),
    Json.narrowedSame _⟩
  exact Nat.not_lt_of_le deep

/- Nested items of several kinds, and the bounds of whole numbers. -/
theorem rootReturnsMixed : ∃ js, ∃ d < 128, Json.Writes mixedText d (.array js) ∧ (Json.array js).fits = true ∧
    ∀ s, ∃ s', (answer "$" (some mixedText)).run s = (.ok (.array js), s') := by
  obtain ⟨js, document, fits⟩ := Json.itemsMeeting mixedText (fun js => (Json.array js).fits) (by decide +kernel)
  obtain ⟨d, room, writes⟩ := Json.readWrites document
  obtain ⟨answers, -, same⟩ := rootReturns writes
  exact ⟨js, d, room, writes, fits, same.mpr fits ▸ answers room⟩

/- The greatest whole number of 64 bits is one off the floating-point number that it becomes, and 128 brackets are one
too many. -/
theorem rootNarrows : Json.read? "[18446744073709551615]" = some (.array [.whole 18446744073709551615]) ∧
    perform (answer "$" (some "[18446744073709551615]")) = .ok (.array [.real (Binary64.ofInt (2 ^ 64))]) ∧
    Json.array [.real (Binary64.ofInt (2 ^ 64))] ≠ .array [.whole 18446744073709551615] ∧
    Json.Writes (Json.brackets 128) 128 (.array [Json.nested 126]) ∧
    perform (answer "$" (some (Json.brackets 128))) = .error .json := by
  obtain ⟨js, document, only⟩ := Json.itemsMeeting "[18446744073709551615]"
    (fun js => decide (js.map Json.whole? = [some 18446744073709551615])) (by decide +kernel)
  obtain ⟨j, rfl, whole⟩ := List.map_eq_singleton_iff.mp (of_decide_eq_true only)
  obtain rfl := Json.ofWhole whole
  obtain ⟨_, run⟩ := rootAnswers document .start
  have rounded : Binary64.ofInt 18446744073709551615 = Binary64.ofInt (2 ^ 64) := by decide +kernel
  have deep := Json.nestedWrites 126
  refine ⟨document, (performs run).trans ?_, nofun, deep, performs (rootRefuses (Json.writesRead deep) .start)⟩
  rw [← rounded]
  rfl

end Command

end SymbolicQuery
