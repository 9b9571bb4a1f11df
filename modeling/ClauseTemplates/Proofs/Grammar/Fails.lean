import ClauseTemplates.Proofs.Grammar.Reads

namespace ClauseTemplates.Grammar

open Scan Scanner Markdown

section

variable (context : ScanContext) (compound : String → Scanner Char Captured)

/-- Nothing is read from this text. -/
def Fails (g : Grammar) (text : List Char) : Prop :=
  ∀ offset, read? (g.scanner context compound) ⟨offset, text⟩ = none

/-- If anything is read from this text, no character of it is. -/
def Idles (g : Grammar) (text : List Char) : Prop :=
  ∀ offset slots next, read? (g.scanner context compound) ⟨offset, text⟩ = some (slots, next) →
    next = ⟨offset, text⟩

end

variable {context : ScanContext} {compound : String → Scanner Char Captured}
  {first second g : Grammar} {text separator : List Char} {blocks : List (Grammar × Bool)}

theorem Fails.idles (h : Fails context compound g text) : Idles context compound g text := by
  intro offset slots next hread
  rw [h offset] at hread
  cases hread

theorem idles_nothing : Idles context compound .nothing text := by
  intro offset slots next hread
  rw [read?_nothing] at hread
  cases hread
  rfl

theorem Fails.seq (second : Grammar) (h : Fails context compound first text) :
    Fails context compound (.seq first second) text := fun offset => read?_seq_none (h offset)

theorem fails_text (h : ¬ separator <+: text) (second : Grammar) :
    Fails context compound (.seq (.text separator) second) text :=
  fun _ => read?_seq_none (read?_text_none h)

theorem Idles.seq_fails (h : Idles context compound first text)
    (h' : Fails context compound second text) : Fails context compound (.seq first second) text := by
  intro offset
  rw [read?_seq]
  cases hread : read? (first.scanner context compound) ⟨offset, text⟩ with
  | none => rfl
  | some x =>
    obtain ⟨slots, next⟩ := x
    rw [h offset slots next hread, Option.bind_some, h' offset]
    rfl

theorem Idles.seq (h : Idles context compound first text) (h' : Idles context compound second text) :
    Idles context compound (.seq first second) text := by
  intro offset slots next hread
  rw [read?_seq] at hread
  obtain ⟨⟨before, mid⟩, hfirst, hread⟩ := Option.bind_eq_some_iff.mp hread
  obtain ⟨⟨after, last⟩, hsecond, hlast⟩ := Option.map_eq_some_iff.mp hread
  have hmid := h offset before mid hfirst
  subst hmid
  have hend := h' offset after last hsecond
  cases hlast
  exact hend

theorem Fails.either (h : Fails context compound first text)
    (h' : Fails context compound second text) : Fails context compound (.either first second) text := by
  intro offset
  rw [read?_either, h offset, h' offset]
  rfl

theorem Idles.either (h : Idles context compound first text)
    (h' : Idles context compound second text) : Idles context compound (.either first second) text := by
  intro offset slots next hread
  rw [read?_either] at hread
  rcases Option.or_eq_some_iff.mp hread with hread | ⟨_, hread⟩
  · exact h offset slots next hread
  · exact h' offset slots next hread

theorem Fails.slot (name type : String) (identifier : Option String)
    (h : Fails context compound g text) :
    Fails context compound (.slot name (.record type identifier g)) text := by
  intro offset
  rw [read?_slot, read?_record, h offset]
  rfl

theorem Idles.slot (name type : String) (identifier : Option String)
    (h : Idles context compound g text) :
    Idles context compound (.slot name (.record type identifier g)) text := by
  intro offset slots next hread
  rw [read?_slot, read?_record, Option.map_map] at hread
  obtain ⟨⟨found, last⟩, hfound, hlast⟩ := Option.map_eq_some_iff.mp hread
  have hend := h offset found last hfound
  cases hlast
  exact hend

/-- Without a separator no later block is read. -/
theorem idles_later (h : ¬ separator <+: text) (blocks : List (Grammar × Bool)) :
    Idles context compound (Compiling.assemble separator blocks).2 text := by
  induction blocks with
  | nil => exact idles_nothing
  | cons block blocks ih =>
    obtain ⟨g, elidable⟩ := block
    have hpresent : Fails context compound
        (.seq (.text separator) (.seq g (Compiling.assemble separator blocks).2)) text :=
      fails_text h _
    cases elidable with
    | true =>
      rw [assemble_elidable]
      exact hpresent.idles.either ih
    | false =>
      rw [assemble_present]
      exact hpresent.idles

theorem fails_later (h : ¬ separator <+: text) (hpresent : ∃ block ∈ blocks, block.2 = false) :
    Fails context compound (Compiling.assemble separator blocks).2 text := by
  induction blocks with
  | nil => simp at hpresent
  | cons block blocks ih =>
    obtain ⟨g, elidable⟩ := block
    have hblock : Fails context compound
        (.seq (.text separator) (.seq g (Compiling.assemble separator blocks).2)) text :=
      fails_text h _
    cases elidable with
    | true =>
      rw [assemble_elidable]
      refine hblock.either (ih ?_)
      obtain ⟨other, hmem, hother⟩ := hpresent
      rcases List.mem_cons.mp hmem with rfl | hmem
      · cases hother
      · exact ⟨other, hmem, hother⟩
    | false =>
      rw [assemble_present]
      exact hblock

theorem idles_first (h : ¬ separator <+: text)
    (hblocks : ∀ block ∈ blocks, Idles context compound block.1 text) :
    Idles context compound (Compiling.assemble separator blocks).1 text := by
  induction blocks with
  | nil => exact idles_nothing
  | cons block blocks ih =>
    obtain ⟨g, elidable⟩ := block
    obtain ⟨hg, hrest⟩ := List.forall_mem_cons.mp hblocks
    have hpresent := hg.seq (idles_later h blocks)
    cases elidable with
    | true =>
      rw [assemble_elidable]
      exact hpresent.either (ih hrest)
    | false =>
      rw [assemble_present]
      exact hpresent

/-- No block is read where one that may not be left out cannot be. -/
theorem fails_first (h : ¬ separator <+: text)
    (hblocks : ∀ block ∈ blocks, Idles context compound block.1 text)
    (hpresent : ∃ block ∈ blocks, block.2 = false ∧ Fails context compound block.1 text) :
    Fails context compound (Compiling.assemble separator blocks).1 text := by
  induction blocks with
  | nil => simp at hpresent
  | cons block blocks ih =>
    obtain ⟨g, elidable⟩ := block
    obtain ⟨hg, hrest⟩ := List.forall_mem_cons.mp hblocks
    obtain ⟨other, hmem, helidable, hfails⟩ := hpresent
    rcases List.mem_cons.mp hmem with rfl | hlater
    · obtain rfl : elidable = false := helidable
      rw [assemble_present]
      exact Fails.seq _ hfails
    · have hblock := hg.seq_fails (fails_later h ⟨other, hlater, helidable⟩)
      cases elidable with
      | true =>
        rw [assemble_elidable]
        exact hblock.either (ih hrest ⟨other, hlater, helidable, hfails⟩)
      | false =>
        rw [assemble_present]
        exact hblock

end ClauseTemplates.Grammar
