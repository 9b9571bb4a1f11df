import ClauseTemplates.Json.Basic
import Mathlib.Data.List.Induction

namespace ClauseTemplates.Json

namespace Fields

@[simp] theorem get?_nil (name : String) : get? name [] = none := rfl

theorem get?_cons (name other : String) (value : Json) (fields : Fields) :
    get? name ((other, value) :: fields) = if name = other then some value else get? name fields := by
  unfold get?
  rw [List.lookup_cons]
  by_cases h : name = other
  · simp [h]
  · simp [h, beq_eq_false_iff_ne.mpr h]

/-- Writing a field changes no other one. -/
theorem get?_insert (name other : String) (value : Json) (fields : Fields) :
    get? name (insert other value fields) = if name = other then some value else get? name fields := by
  induction fields with
  | nil => rw [insert, get?_cons]
  | cons field fields ih =>
    obtain ⟨n, v⟩ := field
    unfold insert
    split
    · rename_i h
      subst h
      rw [get?_cons, get?_cons]
      split <;> rfl
    · rename_i h
      split
      · rw [get?_cons]
      · rw [get?_cons, get?_cons, ih]
        by_cases hn : name = n
        · subst hn
          rw [if_pos rfl, if_neg (Ne.symm h), if_pos rfl]
        · rw [if_neg hn, if_neg hn]

theorem get?_insertNew (name other : String) (value : Json) (fields : Fields) :
    get? name (insertNew other value fields) =
      if name = other then some ((get? name fields).getD value) else get? name fields := by
  unfold insertNew
  split
  · rename_i h
    obtain ⟨first, hf⟩ := Option.isSome_iff_exists.mp h
    by_cases hn : name = other
    · subst hn
      rw [if_pos rfl, hf]
      rfl
    · rw [if_neg hn]
  · rename_i h
    rw [get?_insert]
    by_cases hn : name = other
    · subst hn
      rw [if_pos rfl, if_pos rfl, Option.not_isSome_iff_eq_none.mp h]
      rfl
    · rw [if_neg hn, if_neg hn]

/-- Of several fields of one name the last one is kept. -/
theorem get?_ofList (name : String) (pairs : List (String × Json)) :
    get? name (ofList pairs) = get? name pairs.reverse := by
  induction pairs using List.reverseRecOn with
  | nil => rfl
  | append_singleton pairs pair ih =>
    have hlast : ofList (pairs ++ [pair]) = insert pair.1 pair.2 (ofList pairs) := by
      rw [ofList, List.foldl_append]
      rfl
    rw [hlast, get?_insert, ih, List.reverse_append, List.reverse_singleton, List.singleton_append,
      get?_cons]

theorem mem_names_iff {name : String} {fields : Fields} :
    name ∈ fields.map Prod.fst ↔ ∃ value, get? name fields = some value := by
  induction fields with
  | nil => simp
  | cons field fields ih =>
    obtain ⟨other, value⟩ := field
    rw [List.map_cons, List.mem_cons, ih, get?_cons]
    by_cases h : name = other
    · simp [h]
    · simp [h]

theorem get?_of_mem {name : String} {value : Json} {fields : Fields}
    (hnodup : (fields.map Prod.fst).Nodup) (h : (name, value) ∈ fields) :
    get? name fields = some value := by
  induction fields with
  | nil => cases h
  | cons field fields ih =>
    obtain ⟨other, found⟩ := field
    obtain ⟨hother, hnodup⟩ := List.nodup_cons.mp hnodup
    rw [get?_cons]
    rcases List.mem_cons.mp h with h | h
    · cases h
      exact if_pos rfl
    · have hmem : name ∈ fields.map Prod.fst := List.mem_map_of_mem h
      rw [if_neg (ne_of_mem_of_not_mem hmem hother), ih hnodup h]

theorem mem_names_ofList {name : String} {pairs : List (String × Json)} :
    name ∈ (ofList pairs).map Prod.fst ↔ name ∈ pairs.map Prod.fst := by
  rw [mem_names_iff, get?_ofList, ← mem_names_iff, List.map_reverse, List.mem_reverse]

theorem get?_ofList_of_mem {name : String} {value : Json} {pairs : List (String × Json)}
    (hnodup : (pairs.map Prod.fst).Nodup) (h : (name, value) ∈ pairs) :
    get? name (ofList pairs) = some value := by
  rw [get?_ofList]
  refine get?_of_mem ?_ (List.mem_reverse.mpr h)
  rw [List.map_reverse]
  exact List.pairwise_reverse.mpr (hnodup.imp Ne.symm)

end Fields

/-- The value at the end of a path of field names. -/
def at? : List String → Json → Option Json
  | [], value => some value
  | name :: path, value => (value.get? name).bind (at? path)

theorem at?_append (path more : List String) (value : Json) :
    at? (path ++ more) value = (at? path value).bind (at? more) := by
  induction path generalizing value with
  | nil => rfl
  | cons name path ih =>
    rw [List.cons_append, at?, at?, Option.bind_assoc]
    exact congrArg _ (funext ih)

/-- The same paths lead somewhere. -/
def Alike (a b : Json) : Prop := ∀ path, (at? path a).isSome = (at? path b).isSome

theorem Alike.refl (a : Json) : Alike a a := fun _ => rfl

theorem Alike.trans {a b c : Json} (h : Alike a b) (h' : Alike b c) : Alike a c :=
  fun path => (h path).trans (h' path)

theorem Alike.symm {a b : Json} (h : Alike a b) : Alike b a := fun path => (h path).symm

theorem Alike.at? {a b x : Json} (h : Alike a b) {path : List String} (hx : a.at? path = some x) :
    ∃ y, b.at? path = some y ∧ Alike x y := by
  obtain ⟨y, hy⟩ : ∃ y, b.at? path = some y := by
    rw [← Option.isSome_iff_exists, ← h path, hx]
    rfl
  refine ⟨y, hy, fun more => ?_⟩
  have hm := h (path ++ more)
  rwa [at?_append, at?_append, hx, hy] at hm

theorem alike_leaf {a b : Json} (ha : ∀ name, a.get? name = none) (hb : ∀ name, b.get? name = none) :
    Alike a b := by
  intro path
  cases path with
  | nil => rfl
  | cons name path =>
    rw [Json.at?, Json.at?, ha, hb]

mutual

theorem alike_of_same : ∀ (a b : Json), a.same b = true → Alike a b
  | .obj as, b, h => by
    cases b with
    | obj bs =>
      rw [same] at h
      intro path
      cases path with
      | nil => rfl
      | cons name path => exact sameFields_at as bs h name path
    | _ => simp [same] at h
  | .null, b, h => by
    cases b with
    | null => exact alike_leaf (fun _ => rfl) fun _ => rfl
    | _ => simp [same] at h
  | .bool _, b, h => by
    cases b with
    | bool _ => exact alike_leaf (fun _ => rfl) fun _ => rfl
    | _ => simp [same] at h
  | .int _, b, h => by
    cases b with
    | int _ => exact alike_leaf (fun _ => rfl) fun _ => rfl
    | _ => simp [same] at h
  | .double _, b, h => by
    cases b with
    | double _ => exact alike_leaf (fun _ => rfl) fun _ => rfl
    | _ => simp [same] at h
  | .str _, b, h => by
    cases b with
    | str _ => exact alike_leaf (fun _ => rfl) fun _ => rfl
    | _ => simp [same] at h
  | .arr _, b, h => by
    cases b with
    | arr _ => exact alike_leaf (fun _ => rfl) fun _ => rfl
    | _ => simp [same] at h

theorem sameFields_at : ∀ (as bs : Fields), sameFields as bs = true → ∀ (name : String)
    (path : List String), ((Json.obj as).at? (name :: path)).isSome =
      ((Json.obj bs).at? (name :: path)).isSome
  | [], [], _, _, _ => rfl
  | (m, a) :: as, (n, b) :: bs, h, name, path => by
    simp only [sameFields, Bool.and_eq_true, beq_iff_eq] at h
    obtain ⟨⟨rfl, hab⟩, hrest⟩ := h
    have ih := sameFields_at as bs hrest name path
    simp only [Json.at?, get?, Fields.get?_cons] at ih ⊢
    split
    · exact alike_of_same a b hab path
    · exact ih
  | [], _ :: _, h, _, _ => by simp [sameFields] at h
  | _ :: _, [], h, _, _ => by simp [sameFields] at h

end

end ClauseTemplates.Json
