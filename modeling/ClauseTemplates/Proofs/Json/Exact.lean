import ClauseTemplates.Proofs.Json.Same

namespace ClauseTemplates.Json

mutual

/-- No doubles lie inside, so that values that agree are equal. -/
def Exact : Json → Prop
  | .null => True
  | .bool _ => True
  | .int _ => True
  | .double _ => False
  | .str _ => True
  | .arr items => ExactItems items
  | .obj fields => ExactFields fields

def ExactItems : List Json → Prop
  | [] => True
  | item :: rest => Exact item ∧ ExactItems rest

def ExactFields : List (String × Json) → Prop
  | [] => True
  | (_, value) :: rest => Exact value ∧ ExactFields rest

end

mutual

theorem Exact.eq_of_same : ∀ {a b : Json}, Exact a → a.same b = true → a = b
  | .null, b, _, h => by cases b <;> simp_all [same]
  | .bool _, b, _, h => by cases b <;> simp_all [same]
  | .int _, b, _, h => by cases b <;> simp_all [same]
  | .double _, _, ha, _ => ha.elim
  | .str _, b, _, h => by cases b <;> simp_all [same]
  | .arr as, b, ha, h => by
    cases b with
    | arr bs =>
      rw [same] at h
      rw [ExactItems.eq_of_same ha h]
    | _ => simp [same] at h
  | .obj as, b, ha, h => by
    cases b with
    | obj bs =>
      rw [same] at h
      rw [ExactFields.eq_of_same ha h]
    | _ => simp [same] at h

theorem ExactItems.eq_of_same : ∀ {as bs : List Json}, ExactItems as →
    sameItems as bs = true → as = bs
  | [], [], _, _ => rfl
  | a :: as, b :: bs, ⟨ha, has⟩, h => by
    simp only [sameItems, Bool.and_eq_true] at h
    rw [Exact.eq_of_same ha h.1, ExactItems.eq_of_same has h.2]
  | [], _ :: _, _, h => by simp [sameItems] at h
  | _ :: _, [], _, h => by simp [sameItems] at h

theorem ExactFields.eq_of_same : ∀ {as bs : Fields}, ExactFields as →
    sameFields as bs = true → as = bs
  | [], [], _, _ => rfl
  | (m, a) :: as, (n, b) :: bs, ⟨ha, has⟩, h => by
    simp only [sameFields, Bool.and_eq_true, beq_iff_eq] at h
    rw [h.1.1, Exact.eq_of_same ha h.1.2, ExactFields.eq_of_same has h.2]
  | [], _ :: _, _, h => by simp [sameFields] at h
  | _ :: _, [], _, h => by simp [sameFields] at h

end

theorem exactFields_insert {name : String} {value : Json} {fields : Fields} (hv : Exact value)
    (hf : ExactFields fields) : ExactFields (Fields.insert name value fields) := by
  induction fields with
  | nil => exact ⟨hv, trivial⟩
  | cons field fields ih =>
    obtain ⟨n, v⟩ := field
    unfold Fields.insert
    split
    · exact ⟨hv, hf.2⟩
    · split
      · exact ⟨hv, hf⟩
      · exact ⟨hf.1, ih hf.2⟩

theorem exactFields_insertNew {name : String} {value : Json} {fields : Fields} (hv : Exact value)
    (hf : ExactFields fields) : ExactFields (Fields.insertNew name value fields) := by
  unfold Fields.insertNew
  split
  · exact hf
  · exact exactFields_insert hv hf

theorem exact_of_get? {name : String} {value : Json} {fields : Fields} (hf : ExactFields fields)
    (h : Fields.get? name fields = some value) : Exact value := by
  induction fields with
  | nil => cases h
  | cons field fields ih =>
    obtain ⟨n, v⟩ := field
    rw [Fields.get?_cons] at h
    split at h
    · cases h
      exact hf.1
    · exact ih hf.2 h

end ClauseTemplates.Json
