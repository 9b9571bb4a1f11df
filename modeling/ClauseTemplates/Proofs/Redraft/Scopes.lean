import ClauseTemplates.Proofs.Drafting.Texts
import ClauseTemplates.Proofs.Redraft.Slots
import ClauseTemplates.Proofs.Text.Front
import Mathlib.Data.List.TakeDrop

namespace ClauseTemplates

open Json

/-- A scope has the values of the slots, and none for a block without a slot, unless parsing fills the
field in. -/
structure Holds (text : List Char) (held : Held) (scope : Json) (blocks : List String)
    (slots : List Slot) : Prop where
  fits : ∀ name c start, .mk name c start ∈ slots →
    ∃ v, Drafting.field? scope name = some v ∧ c.FoldsTo text v
  lacks : ∀ filled, held = .record filled → ∀ name ∈ blocks, name ∉ filled →
    (∀ c start, .mk name c start ∉ slots) → Drafting.field? scope name = none

namespace Holds

variable {text : List Char} {held : Held} {scope : Json} {blocks more names others : List String}
  {slots after : List Slot}

theorem left (h : Holds text held scope (blocks ++ more) (slots ++ after))
    (hx : Node.Exclusive (blocks ++ more) (names ++ others)) (hsub : blocks ⊆ names)
    (hfit : SlotsFit text held others after) : Holds text held scope blocks slots := by
  refine ⟨fun name c start hmem => h.fits name c start (List.mem_append_left _ hmem), ?_⟩
  intro filled hheld name hname hfilled hslot
  refine h.lacks filled hheld name (List.mem_append_left _ hname) hfilled fun c start hmem => ?_
  rcases List.mem_append.mp hmem with hmem | hmem
  · exact hslot c start hmem
  · exact hx.not_mem_right hsub hname (hfit.named name c start hmem)

theorem right (h : Holds text held scope (blocks ++ more) (slots ++ after))
    (hx : Node.Exclusive (blocks ++ more) (names ++ others)) (hsub : more ⊆ others)
    (hfit : SlotsFit text held names slots) : Holds text held scope more after := by
  refine ⟨fun name c start hmem => h.fits name c start (List.mem_append_right _ hmem), ?_⟩
  intro filled hheld name hname hfilled hslot
  refine h.lacks filled hheld name (List.mem_append_right _ hname) hfilled fun c start hmem => ?_
  rcases List.mem_append.mp hmem with hmem | hmem
  · exact hx.not_mem_left hsub hname (hfit.named name c start hmem)
  · exact hslot c start hmem

theorem nothing {types : List String} : Holds text (.value types) scope blocks [] :=
  ⟨by simp, by rintro _ ⟨⟩⟩

theorem shown {name : String} {c : Captured} {start : Nat}
    (h : Holds text held scope blocks (slots ++ [.mk name c start])) (hname : name ∉ blocks) :
    Holds text held scope blocks slots := by
  refine ⟨fun other c start hmem => h.fits other c start (List.mem_append_left _ hmem), ?_⟩
  intro filled hheld other hother hfilled hslot
  refine h.lacks filled hheld other hother hfilled fun c start hmem => ?_
  rcases List.mem_append.mp hmem with hmem | hmem
  · exact hslot c start hmem
  · cases List.mem_singleton.mp hmem
    exact hname hother

/-- The current value is the one that its text shows. -/
theorem ofValue {types : List String} {v : Json}
    (hv : (Captured.unwrapped slots).FoldsTo text v) (hfit : SlotsFit text (.value types) names slots)
    (hthis : ∀ name ∈ names, name = thisName) :
    Holds text (.value types) v blocks slots := by
  refine ⟨fun name c start hmem => ?_, by rintro _ ⟨⟩⟩
  obtain rfl := hthis name (hfit.named name c start hmem)
  obtain ⟨n, m, hv⟩ := hv
  obtain ⟨found, hf, rfl⟩ := Captured.run_fold_unwrapped.mp hv
  obtain ⟨w, rfl, hw⟩ := Captured.foldThis_foldsTo hf hfit.exact hmem
  exact ⟨w, by simp [Drafting.field?, hfit.solid _ c start w hmem hw], hw⟩

theorem ofFields {type : String} {identifier : Option String} {fields : Fields} {n k : Nat}
    {filled : List String}
    (hf : (Captured.foldSlots text [("$class", .str type)] slots).run n = .ok (fields, k))
    (hfit : SlotsFit text (.record filled) names slots) (hthis : thisName ∉ names)
    (hsub : blocks ⊆ names) (hclass : "$class" ∈ filled) (hid : ∀ i ∈ identifier, i ∈ filled) :
    Holds text (.record filled) (.obj (Captured.identified identifier fields k).1) blocks slots := by
  constructor
  · intro name c start hmem
    have hname : name ≠ thisName := fun h => hthis (h ▸ hfit.named name c start hmem)
    obtain ⟨v, hget, hv⟩ := Captured.foldSlots_foldsTo hf hfit.exact
      (show Json.ExactFields [("$class", .str type)] from ⟨trivial, trivial⟩) hmem hname
    refine ⟨v, ?_, hv⟩
    rw [Drafting.field?, if_neg hname, Json.get?, Captured.get?_identified_of_some hget]
    simp [hfit.solid name c start v hmem hv]
  · intro _ hheld name hblock hfilled hslot
    cases hheld
    have hname : name ≠ thisName := fun h => hthis (h ▸ hsub hblock)
    rw [Drafting.field?, if_neg hname, Json.get?, Captured.get?_identified]
    · cases hget : Fields.get? name fields with
      | none => rfl
      | some v =>
        rcases Captured.foldSlots_field hf hget with hclass' | ⟨c, start, _, _, hmem, _⟩
        · rw [Fields.get?_cons, if_neg] at hclass'
          · cases hclass'
          · rintro rfl
            exact hfilled hclass
        · exact absurd hmem (hslot c start)
    · rintro i hi rfl
      exact hfilled (hid _ hi)

theorem ofRecord {type : String} {identifier : Option String} {v : Json} {filled : List String}
    (hv : (Captured.record type identifier slots).FoldsTo text v)
    (hfit : SlotsFit text (.record filled) names slots) (hthis : thisName ∉ names)
    (hsub : blocks ⊆ names) (hclass : "$class" ∈ filled) (hid : ∀ i ∈ identifier, i ∈ filled) :
    v.isObject = true ∧ Holds text (.record filled) v blocks slots := by
  obtain ⟨n, m, hv⟩ := hv
  obtain ⟨fields, k, hf, rfl, _⟩ := Captured.run_fold_record.mp hv
  exact ⟨rfl, ofFields hf hfit hthis hsub hclass hid⟩

end Holds

theorem resourceId?_resourceUri {type : String} (id : String) (h : '#' ∉ type.toList) :
    resourceId? (resourceUri type id) = some id := by
  unfold resourceId? resourceUri
  simp only [String.toList_append, List.append_assoc]
  rw [Text.dropStart?_append]
  have hsharp : "#".toList = ['#'] := rfl
  rw [hsharp, List.singleton_append]
  simp [Text.splitAt?_append h]

namespace Drafting

variable {schema : Schema} {context : DraftContext}
  {compound : List Char → List Node → Json → Option (List (List Char))}

/-- A value of a plain type is shown again by the text that it was read from. -/
theorem variableTexts?_of_plain {scan : ScanContext} {compounds : String → Scanner Char Captured}
    {v : Variable} {type : String} {margin w text : List Char} {c : Captured} {scope value : Json}
    (hid : v.identifiedBy = none) (htype : v.type = some type) (hmem : type ∈ plainTypes)
    (h : (Grammar.ofValue schema v).Spells scan compounds w c)
    (hget : field? scope v.name = some value) (hc : c.FoldsTo text value) :
    variableTexts? schema compound margin v scope = some [w] := by
  obtain ⟨program, _, rfl, hcompile, hdraft, _⟩ := Grammar.spells_plain hid htype hmem h
  obtain rfl := Captured.value_foldsTo hc
  unfold variableTexts?
  rw [htype, hget, hid, Option.bind_some, Option.bind_some, hcompile]
  simp [entryTexts?, hdraft, Except.toOption]

/-- A variable shows again the text that its value was read from. -/
theorem variableTexts?_of_spells {scan : ScanContext} {compounds : String → Scanner Char Captured}
    {v : Variable} {margin w text : List Char} {c : Captured} {scope value : Json}
    (hv : v.IsField ∨ ∃ types, v.IsThis types)
    (h : (Grammar.ofValue schema v).Spells scan compounds w c)
    (hget : field? scope v.name = some value) (hc : c.FoldsTo text value) :
    variableTexts? schema compound margin v scope = some [w] := by
  rcases hv with ⟨_, _, ⟨type, htype, hid, hsharp⟩ | ⟨hid, type, hmem, htype⟩⟩ |
    ⟨_, _, hid, type, _, hmem, htype⟩
  · obtain ⟨id, rfl, rfl⟩ := Grammar.spells_reference hid htype h
    obtain rfl := Captured.value_foldsTo hc
    unfold variableTexts?
    rw [htype, hget, Option.bind_some, Option.bind_some, if_pos hid]
    simp [Json.string?, resourceId?_resourceUri _ hsharp]
  · exact variableTexts?_of_plain hid htype hmem h hget hc
  · exact variableTexts?_of_plain hid htype hmem h hget hc

end Drafting

end ClauseTemplates
