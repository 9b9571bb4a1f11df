import ClauseTemplates.Proofs.Grammar.Folding
import ClauseTemplates.Proofs.Json.Fields

namespace ClauseTemplates

open Folding

/-- What is captured has a value, whatever is made of it before. -/
def Captured.Settles (c : Captured) : Prop := ∀ text n, ∃ v m, (c.fold text).run n = .ok (v, m)

/-- Slots with values that are named apart, for properties of these names. -/
structure Slot.Settled (names : List String) (slots : List Slot) : Prop where
  settles : ∀ name captured start, .mk name captured start ∈ slots → captured.Settles
  named : (slots.map Slot.name).Sublist names

namespace Slot.Settled

variable {names more : List String} {slots later : List Slot}

theorem nil (names : List String) : Settled names [] := ⟨by simp, List.nil_sublist names⟩

theorem single (name : String) {captured : Captured} (h : captured.Settles) :
    Settled [name] [.mk name captured 0] := by
  refine ⟨fun other found start hmem => ?_, List.Sublist.refl _⟩
  cases List.mem_singleton.mp hmem
  exact h

theorem append (h : Settled names slots) (h' : Settled more later) :
    Settled (names ++ more) (slots ++ later) := by
  constructor
  · intro name captured start hmem
    rcases List.mem_append.mp hmem with hmem | hmem
    · exact h.settles name captured start hmem
    · exact h'.settles name captured start hmem
  · rw [List.map_append]
    exact h.named.append h'.named

/-- Such slots are folded to fields: none is there twice. -/
theorem run_foldSlots (h : Settled names slots) (hnames : names.Nodup) (text : List Char)
    (fields : Json.Fields) (hfields : ∀ name ∈ names, Json.Fields.get? name fields = none) (n : Nat) :
    ∃ found m, (Captured.foldSlots text fields slots).run n = .ok (found, m) := by
  have hslots : (slots.map Slot.name).Nodup := hnames.sublist h.named
  replace hfields : ∀ name ∈ slots.map Slot.name, Json.Fields.get? name fields = none :=
    fun name hmem => hfields name (h.named.subset hmem)
  have hsettles := h.settles
  clear h hnames
  induction slots generalizing fields n with
  | nil => exact ⟨fields, n, rfl⟩
  | cons slot slots ih =>
    obtain ⟨name, captured, start⟩ := slot
    obtain ⟨hnot, hnodup⟩ := List.nodup_cons.mp hslots
    have hrest (other : String) (c : Captured) (s : Nat) (hmem : .mk other c s ∈ slots) :
        c.Settles := hsettles other c s (List.mem_cons_of_mem _ hmem)
    by_cases hthis : name = thisName
    · obtain ⟨found, m, hfound⟩ := ih fields n hnodup
        (fun other hmem => hfields other (List.mem_cons_of_mem _ hmem)) hrest
      subst hthis
      exact ⟨found, m, Captured.run_foldSlots_this.mpr hfound⟩
    · obtain ⟨v, k, hv⟩ := hsettles name captured start List.mem_cons_self text n
      have hnew (other : String) (hmem : other ∈ slots.map Slot.name) :
          Json.Fields.get? other (Json.Fields.insertNew name v fields) = none := by
        have hother : other ≠ name := fun heq => hnot (heq ▸ hmem)
        rw [Json.Fields.get?_insertNew, if_neg hother]
        exact hfields other (List.mem_cons_of_mem _ hmem)
      obtain ⟨found, m, hfound⟩ := ih (Json.Fields.insertNew name v fields) k hnodup hnew hrest
      refine ⟨found, m, (Captured.run_foldSlots_cons hthis).mpr ⟨v, k, hv, fun first hfirst => ?_, hfound⟩⟩
      rw [hfields name List.mem_cons_self] at hfirst
      cases hfirst

theorem settles_record (h : Settled names slots) (hnames : names.Nodup) (hclass : "$class" ∉ names)
    (type : String) (identifier : Option String) :
    (Captured.record type identifier slots).Settles := by
  intro text n
  have hfields (name : String) (hmem : name ∈ names) :
      Json.Fields.get? name [("$class", .str type)] = none := by
    have hname : name ≠ "$class" := fun heq => hclass (heq ▸ hmem)
    rw [Json.Fields.get?_cons, if_neg hname]
    rfl
  obtain ⟨found, m, hfound⟩ := h.run_foldSlots hnames text _ hfields n
  exact ⟨_, _, Captured.run_fold_record.mpr ⟨found, m, hfound, rfl, rfl⟩⟩

end Slot.Settled

end ClauseTemplates
