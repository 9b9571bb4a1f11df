import ClauseTemplates.Proofs.Json.Fields

namespace ClauseTemplates

namespace Double

theorem beq_self (x : Double) : x.beq x = true := by simp [beq]

theorem beq_trans {x y z : Double} (h : x.beq y = true) (h' : y.beq z = true) : x.beq z = true := by
  simp only [beq, Bool.or_eq_true, Bool.and_eq_true, beq_iff_eq] at h h' ⊢
  rcases h with rfl | ⟨hx, hy⟩
  · exact h'
  · rcases h' with rfl | ⟨_, hz⟩
    · exact Or.inr ⟨hx, hy⟩
    · exact Or.inr ⟨hx, hz⟩

end Double

namespace Json

mutual

theorem same_self : ∀ a : Json, a.same a = true
  | .null => by rw [same]
  | .bool _ => by simp [same]
  | .int _ => by simp [same]
  | .double x => by
    rw [same]
    exact x.beq_self
  | .str _ => by simp [same]
  | .arr as => by
    rw [same]
    exact sameItems_self as
  | .obj as => by
    rw [same]
    exact sameFields_self as

theorem sameItems_self : ∀ as : List Json, sameItems as as = true
  | [] => by rw [sameItems]
  | a :: as => by rw [sameItems, same_self a, sameItems_self as, Bool.and_self]

theorem sameFields_self : ∀ as : Fields, sameFields as as = true
  | [] => by rw [sameFields]
  | (m, a) :: as => by simp [sameFields, same_self a, sameFields_self as]

end

mutual

theorem same_trans : ∀ {a b c : Json}, a.same b = true → b.same c = true → a.same c = true
  | .null, b, c, h, h' => by
    cases b with
    | null => exact h'
    | _ => simp [same] at h
  | .bool x, b, c, h, h' => by
    cases b with
    | bool y =>
      rw [same, beq_iff_eq] at h
      exact h ▸ h'
    | _ => simp [same] at h
  | .int x, b, c, h, h' => by
    cases b with
    | int y =>
      rw [same, beq_iff_eq] at h
      exact h ▸ h'
    | _ => simp [same] at h
  | .str x, b, c, h, h' => by
    cases b with
    | str y =>
      rw [same, beq_iff_eq] at h
      exact h ▸ h'
    | _ => simp [same] at h
  | .double x, b, c, h, h' => by
    cases b with
    | double y =>
      cases c with
      | double z =>
        rw [same] at h h' ⊢
        exact Double.beq_trans h h'
      | _ => simp [same] at h'
    | _ => simp [same] at h
  | .arr as, b, c, h, h' => by
    cases b with
    | arr bs =>
      cases c with
      | arr cs =>
        rw [same] at h h' ⊢
        exact sameItems_trans h h'
      | _ => simp [same] at h'
    | _ => simp [same] at h
  | .obj as, b, c, h, h' => by
    cases b with
    | obj bs =>
      cases c with
      | obj cs =>
        rw [same] at h h' ⊢
        exact sameFields_trans h h'
      | _ => simp [same] at h'
    | _ => simp [same] at h

theorem sameItems_trans : ∀ {as bs cs : List Json}, sameItems as bs = true →
    sameItems bs cs = true → sameItems as cs = true
  | [], [], _, _, h' => h'
  | a :: as, b :: bs, [], _, h' => by simp [sameItems] at h'
  | a :: as, b :: bs, c :: cs, h, h' => by
    simp only [sameItems, Bool.and_eq_true] at h h' ⊢
    exact ⟨same_trans h.1 h'.1, sameItems_trans h.2 h'.2⟩
  | [], _ :: _, _, h, _ => by simp [sameItems] at h
  | _ :: _, [], _, h, _ => by simp [sameItems] at h

theorem sameFields_trans : ∀ {as bs cs : Fields}, sameFields as bs = true →
    sameFields bs cs = true → sameFields as cs = true
  | [], [], _, _, h' => h'
  | (_, a) :: as, (_, b) :: bs, [], _, h' => by simp [sameFields] at h'
  | (_, a) :: as, (_, b) :: bs, (_, c) :: cs, h, h' => by
    simp only [sameFields, Bool.and_eq_true, beq_iff_eq] at h h' ⊢
    exact ⟨⟨h.1.1.trans h'.1.1, same_trans h.1.2 h'.1.2⟩, sameFields_trans h.2 h'.2⟩
  | [], _ :: _, _, h, _ => by simp [sameFields] at h
  | _ :: _, [], _, h, _ => by simp [sameFields] at h

end

theorem sameFields_get? : ∀ {as bs : Fields} {w : Json} {name : String}, sameFields as bs = true →
    Fields.get? name bs = some w → ∃ v, Fields.get? name as = some v ∧ v.same w = true
  | [], [], _, _, _, hw => by cases hw
  | (m, v) :: as, (n, u) :: bs, w, name, h, hw => by
    simp only [sameFields, Bool.and_eq_true, beq_iff_eq] at h
    obtain ⟨⟨rfl, hvu⟩, hrest⟩ := h
    rw [Fields.get?_cons] at hw ⊢
    split
    · rename_i hname
      rw [if_pos hname] at hw
      cases hw
      exact ⟨v, rfl, hvu⟩
    · rename_i hname
      rw [if_neg hname] at hw
      exact sameFields_get? hrest hw
  | [], _ :: _, _, _, h, _ => by simp [sameFields] at h
  | _ :: _, [], _, _, h, _ => by simp [sameFields] at h

/-- Data that agree have fields that agree. -/
theorem get?_of_same {a b w : Json} {name : String} (h : a.same b = true)
    (hw : b.get? name = some w) : ∃ v, a.get? name = some v ∧ v.same w = true := by
  cases b with
  | obj bs =>
    cases a with
    | obj as =>
      rw [same] at h
      exact sameFields_get? h hw
    | _ => simp [same] at h
  | _ => cases hw

theorem eq_arr_of_same {a : Json} {bs : List Json} (h : a.same (.arr bs) = true) :
    ∃ as, a = .arr as ∧ sameItems as bs = true := by
  cases a with
  | arr as =>
    rw [same] at h
    exact ⟨as, rfl, h⟩
  | _ => simp [same] at h

end Json

end ClauseTemplates
