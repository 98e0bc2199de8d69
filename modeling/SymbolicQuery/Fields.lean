/-! Named fields in order. A name that is put again keeps its place and takes the new content. -/
namespace SymbolicQuery

abbrev Fields (α : Type) := List (String × α)

namespace Fields
variable {α : Type}

def get? (name : String) : Fields α → Option α
  | [] => none
  | (n, a) :: rest => if n = name then some a else get? name rest

def put (name : String) (a : α) : Fields α → Fields α
  | [] => [(name, a)]
  | (n, b) :: rest => if n = name then (n, a) :: rest else (n, b) :: put name a rest

def ofList (entries : List (String × α)) : Fields α :=
  entries.foldl (fun fields entry => fields.put entry.1 entry.2) []

def names (fields : Fields α) : List String := fields.map (·.1)

theorem getPut (fields : Fields α) (name other : String) (a : α) :
    (fields.put name a).get? other = if name = other then some a else fields.get? other := by
  induction fields with
  | nil => simp [put, get?]
  | cons entry rest ih =>
    obtain ⟨n, b⟩ := entry
    by_cases same : n = name
    · subst same; by_cases h : n = other <;> simp [put, get?, h]
    · by_cases h : n = other
      · subst h; simp [put, get?, same, Ne.symm same]
      · simp [put, get?, same, h, ih]

theorem namesPut (fields : Fields α) (name : String) (a : α) :
    (fields.put name a).names = if name ∈ fields.names then fields.names else fields.names ++ [name] := by
  induction fields with
  | nil => simp [put, names]
  | cons entry rest ih =>
    obtain ⟨n, b⟩ := entry
    by_cases same : n = name
    · simp [put, names, same]
    · have : ¬ name = n := fun h => same h.symm
      simp only [names] at ih
      by_cases inside : name ∈ rest.map (·.1) <;> simp [put, names, same, this, ih, inside]

section Entries
variable {fields : Fields α} {name : String} {a : α} {P : α → Prop}

theorem getInside (got : fields.get? name = some a) : (name, a) ∈ fields := by
  induction fields with
  | nil => cases got
  | cons entry rest ih =>
    unfold get? at got
    split at got
    · rename_i same
      cases got
      exact same ▸ List.mem_cons_self
    · exact List.mem_cons_of_mem _ (ih got)

theorem getApart (apart : fields.names.Nodup) (inside : (name, a) ∈ fields) : fields.get? name = some a := by
  induction fields with
  | nil => cases inside
  | cons entry rest ih =>
    obtain ⟨fresh, later⟩ := List.nodup_cons.mp apart
    unfold get?
    rcases List.mem_cons.mp inside with rfl | inside
    · exact if_pos rfl
    · have member : name ∈ rest.map (·.1) := List.mem_map_of_mem inside
      have other : entry.1 ≠ name := by
        rintro rfl
        exact fresh member
      rw [if_neg other]
      exact ih later inside

theorem apartPut (apart : fields.names.Nodup) : (fields.put name a).names.Nodup := by
  rw [namesPut]
  split
  · exact apart
  · rename_i fresh
    refine List.nodup_append.mpr ⟨apart, List.pairwise_singleton _ _, ?_⟩
    rintro m inside n last rfl
    exact fresh (List.mem_singleton.mp last ▸ inside)

theorem ofListGrows {entries : List (String × α)}
    (each : ∀ e ∈ entries, e.1 = name → P e.2) (known : ∀ a, fields.get? name = some a → P a)
    (named : (∃ a, fields.get? name = some a) ∨ ∃ e ∈ entries, e.1 = name) :
    ∃ a, (entries.foldl (fun fields entry => fields.put entry.1 entry.2) fields).get? name = some a ∧ P a := by
  induction entries generalizing fields with
  | nil =>
    rcases named with ⟨a, got⟩ | ⟨_, none, _⟩
    · exact ⟨a, got, known a got⟩
    · cases none
  | cons entry rest ih =>
    obtain ⟨here, later⟩ := List.forall_mem_cons.mp each
    refine ih later (fun a got => ?_) ?_ <;> simp only [getPut] at *
    · split at got
      · rename_i same
        cases got
        exact here same
      · exact known a got
    · by_cases same : entry.1 = name
      · exact .inl ⟨entry.2, if_pos same⟩
      · simp only [if_neg same]
        refine named.imp id fun ⟨e, inside, same'⟩ => ?_
        rcases List.mem_cons.mp inside with rfl | inside
        · exact absurd same' same
        · exact ⟨e, inside, same'⟩

theorem ofListApart {entries : List (String × α)} : (ofList entries).names.Nodup := by
  suffices grows : ∀ fields : Fields α, fields.names.Nodup →
      (entries.foldl (fun fields entry => fields.put entry.1 entry.2) fields).names.Nodup from
    grows [] List.nodup_nil
  induction entries with
  | nil => exact fun _ apart => apart
  | cons entry rest ih => exact fun _ apart => ih _ (apartPut apart)

theorem eachPut (each : ∀ f ∈ fields, P f.2) (here : P a) : ∀ f ∈ fields.put name a, P f.2 := by
  induction fields with
  | nil =>
    intro f inside
    cases List.mem_singleton.mp inside
    exact here
  | cons entry rest ih =>
    obtain ⟨first, later⟩ := List.forall_mem_cons.mp each
    unfold Fields.put
    split
    · exact List.forall_mem_cons.mpr ⟨here, later⟩
    · exact List.forall_mem_cons.mpr ⟨first, ih later⟩

theorem eachOfList {entries : List (String × α)} (each : ∀ f ∈ entries, P f.2) :
    ∀ f ∈ ofList entries, P f.2 := by
  suffices grows : ∀ fields : Fields α, (∀ f ∈ fields, P f.2) →
      ∀ f ∈ entries.foldl (fun fields entry => fields.put entry.1 entry.2) fields, P f.2 from
    grows [] (fun f inside => by cases inside)
  induction entries with
  | nil => exact fun fields known => known
  | cons entry rest ih =>
    obtain ⟨here, later⟩ := List.forall_mem_cons.mp each
    exact fun fields known => ih later _ (eachPut known here)

end Entries

end Fields

end SymbolicQuery
