import SymbolicQuery.Proofs.Spelling

/-! Cutting a text into tokens. What stands from one token to the next is a spelling of the token and blanks behind it, so
cut out and read by itself it gives that token again: no token takes a character too many or too few. -/
namespace SymbolicQuery

namespace Token

variable {p a b : Nat} {cs raw bs tail : List Char} {t u : Token} {ts : Tokens}

inductive Cuts : Nat → List Char → Tokens → Prop where
  | done {p : Nat} : Cuts p [] ⟨[], p⟩
  | blank {p : Nat} {c : Char} {cs : List Char} {ts : Tokens} (blank : Text.isBlank c = true) (later : Cuts (p + 1) cs ts) :
      Cuts p (c :: cs) ts
  | token {p : Nat} {raw tail : List Char} {t : Token} {ts : Tokens} (spells : Spells raw t) (apart : t.Apart tail)
      (later : Cuts (p + raw.length) tail ts) : Cuts p (raw ++ tail) { ts with pending := (t, p) :: ts.pending }

theorem spellsSome (spells : Spells raw t) : 0 < raw.length ∧ t ≠ .eof := by
  cases spells with
  | symbol shown => cases t <;> cases shown <;> exact ⟨by decide, by decide⟩
  | string => exact ⟨Nat.succ_pos _, by simp⟩
  | word =>
    refine ⟨Nat.succ_pos _, ?_⟩
    unfold ofWord
    split <;> simp
  | integer any => exact ⟨List.length_pos_of_ne_nil any, by simp⟩
  | float any => exact ⟨by rw [List.length_append, List.length_cons]; omega, by simp⟩

theorem dropSpelled {c : Char} {rest : List Char} (same : c :: rest = raw ++ tail) (some : 0 < raw.length) :
    rest.drop (raw.length - 1) = tail := by
  cases raw with
  | nil => cases some
  | cons d raw =>
    cases same
    exact List.drop_left

theorem readCuts (read : readFrom p cs = .ok ts) : Cuts p cs ts := by
  fun_induction readFrom p cs generalizing ts with
  | case1 p =>
    cases read
    exact .done
  | case2 p c rest blank ih => exact .blank blank (ih read)
  | case3 p c rest solid ih =>
    obtain ⟨⟨t, n⟩, here, read⟩ := okBind.mp read
    obtain ⟨ts, later, last⟩ := okBind.mp read
    cases last
    obtain ⟨raw, tail, same, rfl, spells, apart⟩ := firstSpelled (Bool.eq_false_iff.mpr solid) here
    have some := (spellsSome spells).1
    have cuts := ih _ later
    rw [dropSpelled same some, Nat.max_eq_left some] at cuts
    rw [same]
    exact .token spells apart cuts

theorem cutsRead (cuts : Cuts p cs ts) : readFrom p cs = .ok ts := by
  induction cuts with
  | done =>
    unfold readFrom
    rfl
  | blank blank _ ih =>
    unfold readFrom
    simp only [if_pos blank]
    exact ih
  | token spells apart _ ih =>
    obtain ⟨c, rest, same, clear, read⟩ := spellsRead spells apart
    have some := (spellsSome spells).1
    rw [same]
    unfold readFrom
    simp only [clear, read, Bool.false_eq_true, if_false]
    refine okBind.mpr ⟨_, rfl, okBind.mpr ⟨_, ?_, rfl⟩⟩
    rw [dropSpelled same.symm some, Nat.max_eq_left some]
    exact ih

theorem cutsEnd (cuts : Cuts p cs ts) : ts.finish = p + cs.length := by
  induction cuts with
  | done => rfl
  | blank _ _ ih => rw [ih, List.length_cons, Nat.add_assoc, Nat.add_comm 1]
  | token _ _ _ ih => rw [ih, List.length_append, Nat.add_assoc]

theorem cutsSolid (cuts : Cuts p cs ts) : ∀ placed ∈ ts.pending, placed.1 ≠ .eof := by
  induction cuts with
  | done => simp
  | blank _ _ ih => exact ih
  | token spells _ _ ih => exact List.forall_mem_cons.mpr ⟨(spellsSome spells).2, ih⟩

theorem cutsPlaces (cuts : Cuts p cs ts) :
    (∀ q ∈ ts.toList.map (·.2), p ≤ q) ∧ (ts.toList.map (·.2)).Pairwise (· < ·) := by
  -- Each token takes a character at least, so the next one stands behind it.
  induction cuts with
  | done => simp [Tokens.toList]
  | blank _ _ ih => exact ⟨fun q inside => Nat.le_of_succ_le (ih.1 q inside), ih.2⟩
  | @token p raw _ _ ts spells _ _ ih =>
    have some := (spellsSome spells).1
    have later : ∀ q ∈ ts.toList.map (·.2), p < q := fun q inside => by
      have := ih.1 q inside
      omega
    exact ⟨List.forall_mem_cons.mpr ⟨Nat.le_refl _, fun q inside => Nat.le_of_lt (later q inside)⟩,
      List.pairwise_cons.mpr ⟨later, ih.2⟩⟩

theorem blanksCut (blank : ∀ c ∈ bs, Text.isBlank c = true) : Cuts p bs ⟨[], p + bs.length⟩ := by
  induction bs generalizing p with
  | nil => exact .done
  | cons c bs ih =>
    obtain ⟨here, later⟩ := List.forall_mem_cons.mp blank
    have cuts := ih (p := p + 1) later
    rw [Nat.add_assoc, Nat.add_comm 1] at cuts
    exact .blank here cuts

theorem cutsBefore (cuts : Cuts p cs ts) :
    ∃ bs tail, cs = bs ++ tail ∧ ts.next.2 = p + bs.length ∧ ∀ c ∈ bs, Text.isBlank c = true := by
  induction cuts with
  | done => exact ⟨[], [], rfl, rfl, by simp⟩
  | blank blank _ ih =>
    obtain ⟨bs, tail, rfl, place, each⟩ := ih
    refine ⟨_ :: bs, tail, rfl, ?_, List.forall_mem_cons.mpr ⟨blank, each⟩⟩
    rw [place, List.length_cons, Nat.add_assoc, Nat.add_comm 1]
  | token => exact ⟨[], _, rfl, rfl, by simp⟩

theorem nextFirst {placed : Placed} (first : [placed] <+: ts.toList) : ts.next = placed := by
  obtain ⟨rest, same⟩ := first
  obtain ⟨pending, finish⟩ := ts
  cases pending <;> cases same <;> rfl

theorem cutsSegment (cuts : Cuts p cs ts) (both : [(t, a), (u, b)] <:+: ts.toList) :
    ∃ before raw bs tail, cs = before ++ (raw ++ bs ++ tail) ∧ a = p + before.length ∧ b = a + (raw ++ bs).length ∧
      Spells raw t ∧ t.Apart bs ∧ ∀ c ∈ bs, Text.isBlank c = true := by
  induction cuts with
  | done => exact absurd both.length_le (by simp [Tokens.toList])
  | blank _ _ ih =>
    obtain ⟨before, raw, bs, tail, rfl, rfl, rest⟩ := ih both
    refine ⟨_ :: before, raw, bs, tail, rfl, ?_, rest⟩
    rw [List.length_cons, Nat.add_assoc, Nat.add_comm 1]
  | @token p raw tail _ ts spells apart later ih =>
    rcases List.infix_cons_iff.mp both with first | inside
    · obtain ⟨same, next⟩ := List.cons_prefix_cons.mp first
      cases same
      obtain ⟨bs, tail, rfl, place, blank⟩ := cutsBefore later
      have known : ts.next = (u, b) := nextFirst next
      rw [known] at place
      refine ⟨[], raw, bs, tail, by simp, rfl, place.trans ?_, spells, apart.before, blank⟩
      rw [List.length_append, Nat.add_assoc]
    · obtain ⟨before, raw', bs, tail, rfl, rfl, rest⟩ := ih inside
      refine ⟨raw ++ before, raw', bs, tail, (List.append_assoc ..).symm, ?_, rest⟩
      rw [List.length_append, Nat.add_assoc]

end Token

namespace Tokens

def slice (text : String) (start stop : Nat) : String := String.ofList ((text.toList.drop start).take (stop - start))

/-- The places of tokens grow, blanks alone stand before the first one, and the end of the text stands at the end alone.
What stands from a token to the next one, read by itself, is that token and the end of the text. -/
theorem readSegments {text : String} {ts : Tokens} (read : Tokens.read text = .ok ts) :
    (ts.toList.map (·.2)).Pairwise (· < ·) ∧
    (∀ c ∈ (slice text 0 ts.next.2).toList, Text.isBlank c = true) ∧
    (∃ before, ts.toList = before ++ [(Token.eof, text.length)] ∧ ∀ placed ∈ before, placed.1 ≠ .eof) ∧
    ∀ t a u b, [(t, a), (u, b)] <:+: ts.toList →
      ∃ alone, Tokens.read (slice text a b) = .ok alone ∧ alone.toList = [(t, 0), (.eof, (slice text a b).length)] := by
  have cuts := Token.readCuts read
  refine ⟨(Token.cutsPlaces cuts).2, ?_, ⟨ts.pending, ?_, Token.cutsSolid cuts⟩, fun t a u b both => ?_⟩
  · obtain ⟨bs, tail, same, place, blank⟩ := Token.cutsBefore cuts
    simpa [slice, same, place] using blank
  · rw [toList, Token.cutsEnd cuts, Nat.zero_add, String.length_toList]
  · obtain ⟨before, raw, bs, tail, same, rfl, rfl, spells, apart, blank⟩ := Token.cutsSegment cuts both
    have segment : (slice text (0 + before.length) (0 + before.length + (raw ++ bs).length)).toList = raw ++ bs := by
      rw [slice, same, Nat.zero_add, List.drop_left, Nat.add_sub_cancel_left, List.take_left, String.toList_ofList]
    have alone := Token.cutsRead (.token (p := 0) spells apart (Token.blanksCut blank))
    refine ⟨_, by rw [Tokens.read, segment]; exact alone, ?_⟩
    rw [← String.length_toList, segment]
    simp [toList]

theorem readMeeting (text : String) (placed : List Placed)
    (meets : (match Tokens.read text with
      | .ok ts => decide (ts.toList = placed)
      | .error _ => false) = true) : ∃ ts, Tokens.read text = .ok ts ∧ ts.toList = placed := by
  split at meets
  · exact ⟨_, by assumption, of_decide_eq_true meets⟩
  · cases meets

def mixedText : String := " news>=10.as  'it\\'s\\n'"

/- A point that starts no fraction, a word that starts with another, escapes, and blanks behind a token. -/
theorem readSegmentsOfMixed : ∃ ts, Tokens.read mixedText = .ok ts ∧
    ts.toList = [(.identifier "news", 1), (.greaterEqual, 5), (.integer 10, 7), (.dot, 9), (.asWord, 10),
      (.string "it's\n", 14), (.eof, 23)] ∧
    ∃ alone, Tokens.read (slice mixedText 10 14) = .ok alone ∧ alone.toList = [(.asWord, 0), (.eof, 4)] := by
  obtain ⟨ts, read, listed⟩ := readMeeting mixedText
    [(.identifier "news", 1), (.greaterEqual, 5), (.integer 10, 7), (.dot, 9), (.asWord, 10), (.string "it's\n", 14), (.eof, 23)]
    (by decide +kernel)
  obtain ⟨-, -, -, segments⟩ := readSegments read
  have size : (slice mixedText 10 14).length = 4 := by decide +kernel
  have both : [(.asWord, 10), (.string "it's\n", 14)] <:+: ts.toList := by
    refine ⟨[(.identifier "news", 1), (.greaterEqual, 5), (.integer 10, 7), (.dot, 9)], [(.eof, 23)], ?_⟩
    exact listed.symm
  exact ⟨ts, read, listed, size ▸ segments _ _ _ _ both⟩

end Tokens

end SymbolicQuery
