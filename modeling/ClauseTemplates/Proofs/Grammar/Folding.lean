import ClauseTemplates.Grammar.Capture
import ClauseTemplates.Proofs.Effects
import ClauseTemplates.Proofs.Json.Exact
import Mathlib.Data.List.Forall2

namespace ClauseTemplates

namespace Folding

theorem run_bind_eq_ok {x : Folding α} {f : α → Folding β} {n m : Nat} {b : β} :
    (x >>= f).run n = .ok (b, m) ↔ ∃ a k, x.run n = .ok (a, k) ∧ (f a).run k = .ok (b, m) := by
  rw [StateT.run_bind]
  exact bind_eq_ok.trans
    ⟨fun ⟨p, hp, h⟩ => ⟨p.1, p.2, hp, h⟩, fun ⟨a, k, hp, h⟩ => ⟨(a, k), hp, h⟩⟩

theorem run_pure_eq_ok {a b : α} {n m : Nat} :
    (pure a : Folding α).run n = .ok (b, m) ↔ b = a ∧ m = n := by
  constructor
  · intro h
    cases h
    exact ⟨rfl, rfl⟩
  · rintro ⟨rfl, rfl⟩
    rfl

end Folding

namespace Captured

open Folding Json

variable {text : List Char}

/-- A record with an identifier in its field, the given one if the field is not there. -/
def identified (identifier : Option String) (fields : Fields) (n : Nat) : Fields × Nat :=
  match identifier with
  | none => (fields, n)
  | some name =>
    if (Fields.get? name fields).isSome then (fields, n)
    else (Fields.insert name (.str (Identifier.numbered n)) fields, n + 1)

theorem get?_identified {identifier : Option String} {fields : Fields} {n : Nat} {name : String}
    (h : ∀ i ∈ identifier, name ≠ i) :
    Fields.get? name (identified identifier fields n).1 = Fields.get? name fields := by
  unfold identified
  cases identifier with
  | none => rfl
  | some i =>
    dsimp only
    split
    · rfl
    · rw [Fields.get?_insert, if_neg (h i rfl)]

theorem get?_identified_of_some {identifier : Option String} {fields : Fields} {n : Nat}
    {name : String} {v : Json} (h : Fields.get? name fields = some v) :
    Fields.get? name (identified identifier fields n).1 = some v := by
  unfold identified
  cases identifier with
  | none => exact h
  | some i =>
    dsimp only
    split
    · exact h
    · rename_i hi
      rw [Fields.get?_insert, if_neg, h]
      rintro rfl
      exact hi (by rw [h]; rfl)

theorem run_fold_value {v w : Json} {n m : Nat} :
    (fold text (.value v)).run n = .ok (w, m) ↔ w = v ∧ m = n := by
  rw [fold]
  exact run_pure_eq_ok

theorem run_fold_array {items : List Captured} {w : Json} {n m : Nat} :
    (fold text (.array items)).run n = .ok (w, m) ↔
      ∃ vs, (foldItems text items).run n = .ok (vs, m) ∧ w = .arr vs := by
  rw [fold, run_bind_eq_ok]
  constructor
  · rintro ⟨vs, k, hv, h⟩
    obtain ⟨rfl, rfl⟩ := run_pure_eq_ok.mp h
    exact ⟨vs, hv, rfl⟩
  · rintro ⟨vs, hv, rfl⟩
    exact ⟨vs, m, hv, rfl⟩

theorem run_fold_unwrapped {slots : List Slot} {w : Json} {n m : Nat} :
    (fold text (.unwrapped slots)).run n = .ok (w, m) ↔
      ∃ found, (foldThis text none slots).run n = .ok (found, m) ∧ w = found.getD .null := by
  rw [fold, run_bind_eq_ok]
  constructor
  · rintro ⟨found, k, hv, h⟩
    obtain ⟨rfl, rfl⟩ := run_pure_eq_ok.mp h
    exact ⟨found, hv, rfl⟩
  · rintro ⟨found, hv, rfl⟩
    exact ⟨found, m, hv, rfl⟩

theorem run_fold_record {type : String} {identifier : Option String} {slots : List Slot} {w : Json}
    {n m : Nat} :
    (fold text (.record type identifier slots)).run n = .ok (w, m) ↔
      ∃ fields k, (foldSlots text [("$class", .str type)] slots).run n = .ok (fields, k) ∧
        w = .obj (identified identifier fields k).1 ∧ m = (identified identifier fields k).2 := by
  rw [fold, run_bind_eq_ok]
  refine exists_congr fun fields => exists_congr fun k => and_congr_right fun _ => ?_
  unfold identified
  cases identifier with
  | none => exact run_pure_eq_ok
  | some name =>
    dsimp only
    split
    · exact run_pure_eq_ok
    · rw [run_bind_eq_ok]
      constructor
      · rintro ⟨id, j, hid, h⟩
        obtain ⟨rfl, rfl⟩ := run_pure_eq_ok.mp h
        cases hid
        exact ⟨rfl, rfl⟩
      · rintro ⟨rfl, rfl⟩
        exact ⟨_, _, rfl, rfl⟩

theorem run_foldItems_cons {item : Captured} {rest : List Captured} {ws : List Json} {n m : Nat} :
    (foldItems text (item :: rest)).run n = .ok (ws, m) ↔
      ∃ v k vs, (fold text item).run n = .ok (v, k) ∧ (foldItems text rest).run k = .ok (vs, m) ∧
        ws = v :: vs := by
  rw [foldItems, run_bind_eq_ok]
  constructor
  · rintro ⟨v, k, hv, h⟩
    obtain ⟨vs, j, hvs, h⟩ := run_bind_eq_ok.mp h
    obtain ⟨rfl, rfl⟩ := run_pure_eq_ok.mp h
    exact ⟨v, k, vs, hv, hvs, rfl⟩
  · rintro ⟨v, k, vs, hv, hvs, rfl⟩
    exact ⟨v, k, hv, run_bind_eq_ok.mpr ⟨vs, m, hvs, rfl⟩⟩

theorem run_agree {name : String} {start n m : Nat} {first second : Json} {u : Unit} :
    (agree text name start first second).run n = .ok (u, m) ↔ first.same second = true ∧ m = n := by
  unfold agree
  split
  · rename_i h
    simp only [h, true_and]
    exact run_pure_eq_ok.trans ⟨And.right, fun h => ⟨rfl, h⟩⟩
  · rename_i h
    simp only [h, Bool.false_eq_true, false_and, iff_false]
    rintro ⟨⟩

theorem run_foldSlots_this {fields found : Fields} {c : Captured} {start n m : Nat}
    {rest : List Slot} :
    (foldSlots text fields (.mk thisName c start :: rest)).run n = .ok (found, m) ↔
      (foldSlots text fields rest).run n = .ok (found, m) := by
  rw [foldSlots, if_pos rfl]

/-- A slot adds its field, or agrees with the field that is there. -/
theorem run_foldSlots_cons {fields found : Fields} {name : String} {c : Captured} {start n m : Nat}
    {rest : List Slot} (hname : name ≠ thisName) :
    (foldSlots text fields (.mk name c start :: rest)).run n = .ok (found, m) ↔
      ∃ v k, (fold text c).run n = .ok (v, k) ∧
        (∀ first, Fields.get? name fields = some first → first.same v = true) ∧
        (foldSlots text (Fields.insertNew name v fields) rest).run k = .ok (found, m) := by
  rw [foldSlots, if_neg hname, run_bind_eq_ok]
  refine exists_congr fun v => exists_congr fun k => and_congr_right fun _ => ?_
  unfold Fields.insertNew
  cases hf : Fields.get? name fields with
  | none => simp
  | some first =>
    dsimp only
    rw [run_bind_eq_ok]
    simp only [run_agree, Option.isSome_some, if_true, Option.some.injEq, forall_eq']
    constructor
    · rintro ⟨u, j, ⟨hs, rfl⟩, h⟩
      exact ⟨hs, h⟩
    · rintro ⟨hs, h⟩
      exact ⟨(), k, ⟨hs, rfl⟩, h⟩

/-- Fields are never changed or dropped by later slots. -/
theorem foldSlots_keeps {slots : List Slot} {fields found : Fields} {n m : Nat} {name : String}
    {v : Json} (h : (foldSlots text fields slots).run n = .ok (found, m))
    (hv : Fields.get? name fields = some v) : Fields.get? name found = some v := by
  induction slots generalizing fields n with
  | nil =>
    rw [foldSlots] at h
    obtain ⟨rfl, _⟩ := run_pure_eq_ok.mp h
    exact hv
  | cons slot rest ih =>
    obtain ⟨other, c, start⟩ := slot
    by_cases ho : other = thisName
    · subst ho
      exact ih (run_foldSlots_this.mp h) hv
    · obtain ⟨w, k, _, _, h⟩ := (run_foldSlots_cons ho).mp h
      refine ih h ?_
      rw [Fields.get?_insertNew]
      split
      · rename_i he
        subst he
        rw [hv]
        rfl
      · exact hv

/-- Every slot but those of the current value has a field, with a value that agrees with it. -/
theorem foldSlots_slot {slots : List Slot} {fields found : Fields} {n m : Nat} {name : String}
    {c : Captured} {start : Nat} (h : (foldSlots text fields slots).run n = .ok (found, m))
    (hmem : .mk name c start ∈ slots) (hname : name ≠ thisName) :
    ∃ first v j k, Fields.get? name found = some first ∧ (fold text c).run j = .ok (v, k) ∧
      (first = v ∨ first.same v = true) := by
  induction slots generalizing fields n with
  | nil => cases hmem
  | cons slot rest ih =>
    obtain ⟨other, d, s⟩ := slot
    by_cases ho : other = thisName
    · subst ho
      refine ih (run_foldSlots_this.mp h) ?_
      rcases List.mem_cons.mp hmem with heq | hmem
      · cases heq
        exact absurd rfl hname
      · exact hmem
    · obtain ⟨v, k, hv, hsame, hrest⟩ := (run_foldSlots_cons ho).mp h
      rcases List.mem_cons.mp hmem with heq | hmem
      · cases heq
        have hk := foldSlots_keeps hrest
          ((Fields.get?_insertNew name name v fields).trans (if_pos rfl))
        refine ⟨_, v, n, k, hk, hv, ?_⟩
        cases hf : Fields.get? name fields with
        | none => exact Or.inl rfl
        | some first => exact Or.inr (hsame first hf)
      · exact ih hrest hmem

/-- A field comes from the fields before or from a slot. -/
theorem foldSlots_field {slots : List Slot} {fields found : Fields} {n m : Nat} {name : String}
    {v : Json} (h : (foldSlots text fields slots).run n = .ok (found, m))
    (hv : Fields.get? name found = some v) :
    Fields.get? name fields = some v ∨
      ∃ c start j k, .mk name c start ∈ slots ∧ (fold text c).run j = .ok (v, k) := by
  induction slots generalizing fields n with
  | nil =>
    rw [foldSlots] at h
    obtain ⟨rfl, _⟩ := run_pure_eq_ok.mp h
    exact Or.inl hv
  | cons slot rest ih =>
    obtain ⟨other, d, s⟩ := slot
    by_cases ho : other = thisName
    · subst ho
      rcases ih (run_foldSlots_this.mp h) with hl | ⟨c, start, j, k, hc, hr⟩
      · exact Or.inl hl
      · exact Or.inr ⟨c, start, j, k, List.mem_cons_of_mem _ hc, hr⟩
    · obtain ⟨w, k, hw, _, h⟩ := (run_foldSlots_cons ho).mp h
      rcases ih h with hl | ⟨c, start, j, k, hc, hr⟩
      · rw [Fields.get?_insertNew] at hl
        split at hl
        · rename_i he
          subst he
          cases hf : Fields.get? name fields with
          | none =>
            rw [hf] at hl
            cases hl
            exact Or.inr ⟨d, s, n, k, List.mem_cons_self, hw⟩
          | some first =>
            rw [hf] at hl
            exact Or.inl hl
        · exact Or.inl hl
      · exact Or.inr ⟨c, start, j, k, List.mem_cons_of_mem _ hc, hr⟩

theorem run_foldThis_other {name : String} {c : Captured} {start n m : Nat}
    {found result : Option Json} {rest : List Slot} (hname : name ≠ thisName) :
    (foldThis text found (.mk name c start :: rest)).run n = .ok (result, m) ↔
      (foldThis text found rest).run n = .ok (result, m) := by
  rw [foldThis, if_pos hname]

theorem run_foldThis_cons {found result : Option Json} {c : Captured} {start n m : Nat}
    {rest : List Slot} :
    (foldThis text found (.mk thisName c start :: rest)).run n = .ok (result, m) ↔
      ∃ v k, (fold text c).run n = .ok (v, k) ∧ (∀ first ∈ found, first.same v = true) ∧
        (foldThis text (some (found.getD v)) rest).run k = .ok (result, m) := by
  rw [foldThis, if_neg (not_not_intro rfl), run_bind_eq_ok]
  refine exists_congr fun v => exists_congr fun k => and_congr_right fun _ => ?_
  cases found with
  | none => simp
  | some first =>
    dsimp only
    rw [run_bind_eq_ok]
    simp only [run_agree, Option.mem_def, Option.some.injEq, forall_eq', Option.getD_some]
    constructor
    · rintro ⟨u, j, ⟨hs, rfl⟩, h⟩
      exact ⟨hs, h⟩
    · rintro ⟨hs, h⟩
      exact ⟨(), k, ⟨hs, rfl⟩, h⟩

theorem foldThis_keeps {slots : List Slot} {v : Json} {result : Option Json} {n m : Nat}
    (h : (foldThis text (some v) slots).run n = .ok (result, m)) : result = some v := by
  induction slots generalizing n with
  | nil =>
    rw [foldThis] at h
    exact (run_pure_eq_ok.mp h).1
  | cons slot rest ih =>
    obtain ⟨name, c, start⟩ := slot
    by_cases hname : name = thisName
    · subst hname
      obtain ⟨_, _, _, _, h⟩ := run_foldThis_cons.mp h
      exact ih h
    · exact ih ((run_foldThis_other hname).mp h)

/-- Every slot of the current value agrees with the result. -/
theorem foldThis_slot {slots : List Slot} {found result : Option Json} {n m : Nat} {c : Captured}
    {start : Nat} (h : (foldThis text found slots).run n = .ok (result, m))
    (hmem : .mk thisName c start ∈ slots) :
    ∃ first v j k, result = some first ∧ (fold text c).run j = .ok (v, k) ∧
      (first = v ∨ first.same v = true) := by
  induction slots generalizing found n with
  | nil => cases hmem
  | cons slot rest ih =>
    obtain ⟨other, d, s⟩ := slot
    by_cases ho : other = thisName
    · subst ho
      obtain ⟨v, k, hv, hsame, hrest⟩ := run_foldThis_cons.mp h
      rcases List.mem_cons.mp hmem with heq | hmem
      · cases heq
        refine ⟨_, v, n, k, foldThis_keeps hrest, hv, ?_⟩
        cases found with
        | none => exact Or.inl rfl
        | some first => exact Or.inr (hsame first rfl)
      · exact ih hrest hmem
    · refine ih ((run_foldThis_other ho).mp h) ?_
      rcases List.mem_cons.mp hmem with heq | hmem
      · cases heq
        exact absurd rfl ho
      · exact hmem

/-- The value that a text shows, with some identifiers. -/
def FoldsTo (text : List Char) (c : Captured) (v : Json) : Prop :=
  ∃ n m, (fold text c).run n = .ok (v, m)

theorem foldItems_foldsTo {items : List Captured} {vs : List Json} {n m : Nat}
    (h : (foldItems text items).run n = .ok (vs, m)) : List.Forall₂ (FoldsTo text) items vs := by
  induction items generalizing vs n with
  | nil =>
    rw [foldItems] at h
    obtain ⟨rfl, _⟩ := run_pure_eq_ok.mp h
    exact .nil
  | cons item rest ih =>
    obtain ⟨v, k, ws, hv, hws, rfl⟩ := run_foldItems_cons.mp h
    exact .cons ⟨n, k, hv⟩ (ih hws)

mutual

/-- No doubles are captured. -/
def Exact : Captured → Prop
  | .value v => v.Exact
  | .record _ _ slots => ExactSlots slots
  | .unwrapped slots => ExactSlots slots
  | .array items => ExactItems items

def ExactItems : List Captured → Prop
  | [] => True
  | item :: rest => Exact item ∧ ExactItems rest

def ExactSlots : List Slot → Prop
  | [] => True
  | .mk _ c _ :: rest => Exact c ∧ ExactSlots rest

end

theorem exactSlots_append {slots more : List Slot} :
    ExactSlots (slots ++ more) ↔ ExactSlots slots ∧ ExactSlots more := by
  induction slots with
  | nil => simp [ExactSlots]
  | cons slot rest ih =>
    obtain ⟨name, c, start⟩ := slot
    simp [ExactSlots, ih, and_assoc]

mutual

theorem exact_fold : ∀ {c : Captured} {v : Json} {n m : Nat}, Exact c →
    (fold text c).run n = .ok (v, m) → v.Exact
  | .value w, v, n, m, hc, h => by
    obtain ⟨rfl, _⟩ := run_fold_value.mp h
    exact hc
  | .array items, v, n, m, hc, h => by
    obtain ⟨vs, hvs, rfl⟩ := run_fold_array.mp h
    exact exact_foldItems hc hvs
  | .unwrapped slots, v, n, m, hc, h => by
    obtain ⟨found, hf, rfl⟩ := run_fold_unwrapped.mp h
    have := exact_foldThis hc (fun _ h => by cases h) hf
    cases found with
    | none => exact trivial
    | some w => exact this w rfl
  | .record type identifier slots, v, n, m, hc, h => by
    obtain ⟨fields, k, hf, rfl, _⟩ := run_fold_record.mp h
    have hclass : Json.ExactFields [("$class", .str type)] := ⟨trivial, trivial⟩
    have hfields := exact_foldSlots hc hclass hf
    unfold identified
    cases identifier with
    | none => exact hfields
    | some name =>
      dsimp only
      split
      · exact hfields
      · exact exactFields_insert trivial hfields

theorem exact_foldItems : ∀ {items : List Captured} {vs : List Json} {n m : Nat},
    ExactItems items → (foldItems text items).run n = .ok (vs, m) → Json.ExactItems vs
  | [], vs, n, m, _, h => by
    rw [foldItems] at h
    obtain ⟨rfl, _⟩ := run_pure_eq_ok.mp h
    exact trivial
  | item :: rest, vs, n, m, hc, h => by
    obtain ⟨v, k, ws, hv, hws, rfl⟩ := run_foldItems_cons.mp h
    exact ⟨exact_fold hc.1 hv, exact_foldItems hc.2 hws⟩

theorem exact_foldSlots : ∀ {slots : List Slot} {fields found : Fields} {n m : Nat},
    ExactSlots slots → Json.ExactFields fields →
      (foldSlots text fields slots).run n = .ok (found, m) → Json.ExactFields found
  | [], fields, found, n, m, _, hf, h => by
    rw [foldSlots] at h
    obtain ⟨rfl, _⟩ := run_pure_eq_ok.mp h
    exact hf
  | .mk name c start :: rest, fields, found, n, m, hc, hf, h => by
    by_cases hname : name = thisName
    · subst hname
      exact exact_foldSlots hc.2 hf (run_foldSlots_this.mp h)
    · obtain ⟨v, k, hv, _, h⟩ := (run_foldSlots_cons hname).mp h
      exact exact_foldSlots hc.2 (exactFields_insertNew (exact_fold hc.1 hv) hf) h

theorem exact_foldThis : ∀ {slots : List Slot} {found result : Option Json} {n m : Nat},
    ExactSlots slots → (∀ v ∈ found, v.Exact) →
      (foldThis text found slots).run n = .ok (result, m) → ∀ v ∈ result, v.Exact
  | [], found, result, n, m, _, hf, h => by
    rw [foldThis] at h
    obtain ⟨rfl, _⟩ := run_pure_eq_ok.mp h
    exact hf
  | .mk name c start :: rest, found, result, n, m, hc, hf, h => by
    by_cases hname : name = thisName
    · subst hname
      obtain ⟨v, k, hv, _, h⟩ := run_foldThis_cons.mp h
      refine exact_foldThis hc.2 ?_ h
      intro w hw
      cases found with
      | none =>
        cases hw
        exact exact_fold hc.1 hv
      | some first =>
        cases hw
        exact hf first rfl
    · exact exact_foldThis hc.2 hf ((run_foldThis_other hname).mp h)

end

/-- Where no doubles are captured, the field of a slot is the value of the slot. -/
theorem foldSlots_foldsTo {slots : List Slot} {fields found : Fields} {n m : Nat} {name : String}
    {c : Captured} {start : Nat} (h : (foldSlots text fields slots).run n = .ok (found, m))
    (hslots : ExactSlots slots) (hfields : Json.ExactFields fields)
    (hmem : .mk name c start ∈ slots) (hname : name ≠ thisName) :
    ∃ v, Fields.get? name found = some v ∧ FoldsTo text c v := by
  obtain ⟨first, v, j, k, hget, hv, hsame⟩ := foldSlots_slot h hmem hname
  refine ⟨first, hget, j, k, ?_⟩
  rcases hsame with rfl | hsame
  · exact hv
  · rw [(exact_of_get? (exact_foldSlots hslots hfields h) hget).eq_of_same hsame]
    exact hv

theorem foldThis_foldsTo {slots : List Slot} {result : Option Json} {n m : Nat} {c : Captured}
    {start : Nat} (h : (foldThis text none slots).run n = .ok (result, m))
    (hslots : ExactSlots slots) (hmem : .mk thisName c start ∈ slots) :
    ∃ v, result = some v ∧ FoldsTo text c v := by
  obtain ⟨first, v, j, k, rfl, hv, hsame⟩ := foldThis_slot h hmem
  refine ⟨first, rfl, j, k, ?_⟩
  rcases hsame with rfl | hsame
  · exact hv
  · have hfirst : first.Exact := exact_foldThis hslots (fun _ h => by cases h) h first rfl
    rw [hfirst.eq_of_same hsame]
    exact hv

end Captured

end ClauseTemplates
