import ClauseTemplates.Proofs.Json.Fields

namespace ClauseTemplates.Json.Fields

/-- The fields of an object stand in the order of their names, and no name stands twice. -/
def Sorted (fields : Fields) : Prop := fields.Pairwise fun a b => a.1 < b.1

theorem sorted_singleton (field : String × Json) : Sorted [field] := List.pairwise_singleton _ _

theorem sorted_cons {name : String} {value : Json} {fields : Fields} :
    Sorted ((name, value) :: fields) ↔ (∀ field ∈ fields, name < field.1) ∧ Sorted fields :=
  List.pairwise_cons

theorem mem_insert {name : String} {value : Json} {fields : Fields} {field : String × Json}
    (h : field ∈ insert name value fields) : field = (name, value) ∨ field ∈ fields := by
  induction fields with
  | nil => exact Or.inl (List.mem_singleton.mp h)
  | cons first rest ih =>
    obtain ⟨n, v⟩ := first
    unfold insert at h
    split at h
    · exact (List.mem_cons.mp h).imp id (List.mem_cons_of_mem _)
    · split at h
      · exact List.mem_cons.mp h
      · rcases List.mem_cons.mp h with rfl | h
        · exact Or.inr List.mem_cons_self
        · exact (ih h).imp id (List.mem_cons_of_mem _)

theorem Sorted.insert {fields : Fields} (h : Sorted fields) (name : String) (value : Json) :
    Sorted (insert name value fields) := by
  induction fields with
  | nil => exact sorted_singleton _
  | cons first rest ih =>
    obtain ⟨n, v⟩ := first
    obtain ⟨hfirst, hrest⟩ := sorted_cons.mp h
    unfold Fields.insert
    split
    · rename_i heq
      subst heq
      exact sorted_cons.mpr ⟨hfirst, hrest⟩
    · rename_i hne
      split
      · rename_i hlt
        refine sorted_cons.mpr ⟨fun field hmem => ?_, h⟩
        rcases List.mem_cons.mp hmem with rfl | hmem
        · exact hlt
        · exact String.lt_trans hlt (hfirst field hmem)
      · rename_i hlt
        refine sorted_cons.mpr ⟨fun field hmem => ?_, ih hrest⟩
        rcases mem_insert hmem with rfl | hmem
        · have hle := String.not_lt.mp hlt
          exact String.not_le.mp fun hge => hne (String.le_antisymm hge hle)
        · exact hfirst field hmem

theorem Sorted.insertNew {fields : Fields} (h : Sorted fields) (name : String) (value : Json) :
    Sorted (insertNew name value fields) := by
  unfold Fields.insertNew
  split
  · exact h
  · exact h.insert name value

theorem Sorted.nodup {fields : Fields} (h : Sorted fields) : (fields.map Prod.fst).Nodup := by
  refine List.pairwise_map.mpr (h.imp ?_)
  intro a b hlt heq
  exact String.lt_irrefl b.1 (heq ▸ hlt)

theorem sorted_ofList (pairs : List (String × Json)) : Sorted (ofList pairs) := by
  unfold ofList
  induction pairs using List.reverseRecOn with
  | nil => exact .nil
  | append_singleton pairs pair ih =>
    rw [List.foldl_append]
    exact ih.insert pair.1 pair.2

theorem mem_of_mem_ofList {pairs : List (String × Json)} {field : String × Json}
    (h : field ∈ ofList pairs) : field ∈ pairs := by
  unfold ofList at h
  induction pairs using List.reverseRecOn with
  | nil => cases h
  | append_singleton pairs pair ih =>
    rw [List.foldl_append] at h
    rcases mem_insert h with rfl | h
    · exact List.mem_append_right pairs List.mem_cons_self
    · exact List.mem_append_left _ (ih h)

theorem get?_eq_none_of_lt {name : String} {fields : Fields}
    (h : ∀ field ∈ fields, name < field.1) : get? name fields = none := by
  refine List.lookup_eq_none_iff.mpr fun field hmem => ?_
  rw [bne_iff_ne]
  intro heq
  exact String.lt_irrefl name (heq ▸ h field hmem)

/-- No field stands before the first one. -/
theorem Sorted.le_of_get? {name other : String} {value found : Json} {fields : Fields}
    (h : Sorted ((name, value) :: fields)) (hget : get? other ((name, value) :: fields) = some found) :
    name ≤ other := by
  refine String.not_lt.mp fun hlt => ?_
  rw [get?_eq_none_of_lt] at hget
  · cases hget
  · intro field hmem
    rcases List.mem_cons.mp hmem with rfl | hmem
    · exact hlt
    · exact String.lt_trans hlt ((sorted_cons.mp h).1 field hmem)

/-- Sorted fields are determined by what stands under each name. -/
theorem Sorted.ext {fields others : Fields} (h : Sorted fields) (h' : Sorted others)
    (hget : ∀ name, get? name fields = get? name others) : fields = others := by
  induction fields generalizing others with
  | nil =>
    cases others with
    | nil => rfl
    | cons first rest =>
      have := hget first.1
      rw [get?_cons, if_pos rfl] at this
      cases this
  | cons first rest ih =>
    obtain ⟨n, v⟩ := first
    have hv : get? n ((n, v) :: rest) = some v := (get?_cons ..).trans (if_pos rfl)
    cases others with
    | nil => cases hv.symm.trans (hget n)
    | cons other others =>
      obtain ⟨m, w⟩ := other
      have hw : get? m ((m, w) :: others) = some w := (get?_cons ..).trans (if_pos rfl)
      obtain rfl : n = m := String.le_antisymm (h.le_of_get? ((hget m).trans hw))
        (h'.le_of_get? ((hget n).symm.trans hv))
      obtain rfl : v = w := Option.some.inj (hv.symm.trans ((hget n).trans hw))
      obtain ⟨hn, hrest⟩ := sorted_cons.mp h
      obtain ⟨hm, hothers⟩ := sorted_cons.mp h'
      refine congrArg _ (ih hrest hothers fun name => ?_)
      by_cases hname : name = n
      · subst hname
        rw [get?_eq_none_of_lt hn, get?_eq_none_of_lt hm]
      · have := hget name
        rwa [get?_cons, if_neg hname, get?_cons, if_neg hname] at this

/-- The first of the pairs of each name, sorted. -/
theorem exists_sorted (pairs : Fields) :
    ∃ fields : Fields, fields.Sorted ∧ ∀ name, get? name fields = get? name pairs := by
  induction pairs with
  | nil => exact ⟨[], .nil, fun _ => rfl⟩
  | cons pair rest ih =>
    obtain ⟨n, v⟩ := pair
    obtain ⟨fields, hsorted, hget⟩ := ih
    refine ⟨Fields.insert n v fields, hsorted.insert n v, fun name => ?_⟩
    rw [get?_insert, get?_cons, hget]

end ClauseTemplates.Json.Fields
