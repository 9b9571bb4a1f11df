import ClauseTemplates.Drafting
import ClauseTemplates.Grammar.Compile
import ClauseTemplates.Proofs.Effects
import ClauseTemplates.Proofs.Scan.Repeated
import Mathlib.Data.List.Infix

namespace ClauseTemplates

open Scan Scanner

/-- The longest of some values that stand in front of a text. -/
structure Longest (values : List String) (text : List Char) (value : String) : Prop where
  mem : value ∈ values
  front : value.toList <+: text
  le : ∀ other ∈ values, other.toList <+: text → other.length ≤ value.length

section

variable {values : List String} {text : List Char} {value other : String} {c next : Cursor Char}
  {captured : Captured}

/-- Texts of one length in front of the same text are the same. -/
theorem Longest.unique (h : Longest values text value) (h' : Longest values text other) :
    value = other := by
  have hlength : value.length = other.length :=
    Nat.le_antisymm (h'.le value h.mem h.front) (h.le other h'.mem h'.front)
  have heq : value.toList = other.toList := by
    rw [List.prefix_iff_eq_take.mp h.front, List.prefix_iff_eq_take.mp h'.front,
      String.length_toList, String.length_toList, hlength]
  exact String.toList_inj.mp heq

theorem mem_longestFirst_insert {value v : String} {values : List String} :
    value ∈ longestFirst.insert v values ↔ value = v ∨ value ∈ values := by
  induction values with
  | nil => simp [longestFirst.insert]
  | cons u us ih =>
    unfold longestFirst.insert
    split
    · simp only [List.mem_cons, ih]
      tauto
    · simp

theorem mem_longestFirst {value : String} {values : List String} :
    value ∈ longestFirst values ↔ value ∈ values := by
  induction values with
  | nil => simp [longestFirst]
  | cons v vs ih => simp [longestFirst, mem_longestFirst_insert, ih]

theorem pairwise_longestFirst_insert (value : String) {values : List String}
    (h : values.Pairwise fun a b => b.length ≤ a.length) :
    (longestFirst.insert value values).Pairwise fun a b => b.length ≤ a.length := by
  induction values with
  | nil => exact List.pairwise_singleton _ _
  | cons v rest ih =>
    obtain ⟨hv, hrest⟩ := List.pairwise_cons.mp h
    unfold longestFirst.insert
    split
    · rename_i hlt
      refine List.pairwise_cons.mpr ⟨fun other hmem => ?_, ih hrest⟩
      rcases mem_longestFirst_insert.mp hmem with rfl | hmem
      · exact Nat.le_of_lt hlt
      · exact hv other hmem
    · rename_i hle
      refine List.pairwise_cons.mpr ⟨fun other hmem => ?_, h⟩
      rcases List.mem_cons.mp hmem with rfl | hmem
      · exact Nat.not_lt.mp hle
      · exact (hv other hmem).trans (Nat.not_lt.mp hle)

theorem pairwise_longestFirst (values : List String) :
    (longestFirst values).Pairwise fun a b => b.length ≤ a.length := by
  induction values with
  | nil => exact .nil
  | cons value rest ih => exact pairwise_longestFirst_insert value ih

/-- The texts of the values of an enumeration, in the order in which they are tried. -/
def enumChoices (values : List String) : List (List Char × Captured) :=
  (longestFirst values).map fun value => (value.toList, .value (.str value))

theorem longest_of_read (h : read? (oneOf (enumChoices values)) c = some (captured, next)) :
    ∃ value, Longest values c.rest value ∧ captured = .value (.str value) ∧
      c.Passes value.toList next := by
  obtain ⟨earlier, text, later, heq, hearlier, hpass⟩ := read?_oneOf_iff.mp h
  obtain ⟨front, tail, hsplit, rfl, htail⟩ := List.map_eq_append_iff.mp heq
  obtain ⟨value, back, rfl, hvalue, -⟩ := List.map_eq_cons_iff.mp htail
  cases hvalue
  refine ⟨value, ⟨?_, ⟨next.rest, hpass.1.symm⟩, fun other hmem hfront => ?_⟩, rfl, hpass⟩
  · exact mem_longestFirst.mp (hsplit ▸ List.mem_append_right front List.mem_cons_self)
  -- A value tried earlier does not stand in front, and one tried later is not longer.
  · have hsorted := pairwise_longestFirst values
    rw [hsplit] at hsorted
    rw [← mem_longestFirst, hsplit] at hmem
    rcases List.mem_append.mp hmem with hmem | hmem
    · exact absurd hfront (hearlier _ (List.mem_map_of_mem hmem))
    · rcases List.mem_cons.mp hmem with rfl | hmem
      · exact Nat.le_refl _
      · exact List.rel_of_pairwise_cons (List.pairwise_append.mp hsorted).2.1 hmem

theorem exists_read?_enumChoices (hmem : value ∈ values) (hfront : value.toList <+: c.rest) :
    ∃ x, read? (oneOf (enumChoices values)) c = some x := by
  have hchoice : (value.toList, Captured.value (.str value)) ∈ enumChoices values :=
    List.mem_map_of_mem (mem_longestFirst.mpr hmem)
  refine Option.ne_none_iff_exists'.mp fun hnone => ?_
  exact read?_oneOf_none_iff.mp hnone _ hchoice hfront

theorem exists_longest_iff :
    (∃ value, Longest values text value) ↔ ∃ value ∈ values, value.toList <+: text := by
  constructor
  · rintro ⟨value, hlongest⟩
    exact ⟨value, hlongest.mem, hlongest.front⟩
  · rintro ⟨value, hmem, hfront⟩
    obtain ⟨⟨captured, next⟩, hread⟩ := exists_read?_enumChoices (c := ⟨0, text⟩) hmem hfront
    obtain ⟨longest, hlongest, -⟩ := longest_of_read hread
    exact ⟨longest, hlongest⟩

/-- The choice among the values of an enumeration reads the longest that stands in front. -/
theorem read?_enumChoices : read? (oneOf (enumChoices values)) c = some (captured, next) ↔
    ∃ value, Longest values c.rest value ∧ captured = .value (.str value) ∧
      c.Passes value.toList next := by
  constructor
  · exact longest_of_read
  · rintro ⟨value, hlongest, rfl, hpass⟩
    obtain ⟨⟨found, behind⟩, hread⟩ := exists_read?_enumChoices hlongest.mem hlongest.front
    obtain ⟨other, hother, rfl, hbehind⟩ := longest_of_read hread
    obtain rfl := hlongest.unique hother
    rw [hread, hbehind.unique hpass]

end

namespace Drafting

theorem yields_required {scope value : Json} {name : String} {s s' : DraftState}
    (h : Yields (required scope name) s value s') : field? scope name = some value ∧ s' = s := by
  unfold required at h
  cases hfield : field? scope name with
  | none =>
    rw [hfield] at h
    exact absurd h not_yields_throw
  | some found =>
    rw [hfield] at h
    obtain ⟨rfl, hs⟩ := yields_pure.mp h
    exact ⟨rfl, hs⟩

/-- Only a value of the enumeration is drafted, as it stands. -/
theorem yields_enumVariable {v : EnumVariable} {scope : Json} {s s' : DraftState} {docs : List Doc}
    (h : Yields (enumVariable v scope) s docs s') :
    ∃ value ∈ v.values, field? scope v.name = some (.str value) ∧ docs = [fragment value.toList] ∧
      s' = s := by
  obtain ⟨value, between, hvalue, h⟩ := yields_bind.mp h
  obtain ⟨hfield, rfl⟩ := yields_required hvalue
  cases value with
  | str value =>
    dsimp only at h
    split at h
    · rename_i hmem
      obtain ⟨rfl, hs⟩ := yields_pure.mp h
      exact ⟨value, List.contains_iff_mem.mp hmem, hfield, rfl, hs⟩
    · exact absurd h not_yields_throw
  | _ => exact absurd h not_yields_throw

end Drafting

namespace EnumVariable

/-- What stands behind a drafted value does not make it the beginning of a longer one. -/
def Ended (v : EnumVariable) (value : String) (rest : List Char) : Prop :=
  ∀ longer ∈ v.values, value.length < longer.length → ¬ longer.toList <+: value.toList ++ rest

instance (v : EnumVariable) (value : String) (rest : List Char) : Decidable (v.Ended value rest) :=
  inferInstanceAs (Decidable (∀ longer ∈ v.values, value.length < longer.length →
    ¬ longer.toList <+: value.toList ++ rest))

theorem longest_iff_ended {v : EnumVariable} {value : String} (hmem : value ∈ v.values)
    (rest : List Char) : Longest v.values (value.toList ++ rest) value ↔ v.Ended value rest := by
  constructor
  · exact fun h longer hlonger hlt hfront => absurd (h.le longer hlonger hfront) (Nat.not_le.mpr hlt)
  · exact fun h => ⟨hmem, List.prefix_append _ _, fun other hother hfront =>
      Nat.not_lt.mp fun hlt => h other hother hlt hfront⟩

theorem read?_slot (context : ScanContext) (compound : String → Scanner Char Captured)
    (v : EnumVariable) (c next : Cursor Char) (slots : List Slot) :
    read? (Grammar.scanner context compound (.slot v.name (.enum v.values))) c = some (slots, next) ↔
      ∃ value, Longest v.values c.rest value ∧ slots = [.mk v.name (.value (.str value)) c.offset] ∧
        c.Passes value.toList next := by
  have hscan : read? (Grammar.scanner context compound (.slot v.name (.enum v.values))) c =
      (read? (oneOf (enumChoices v.values)) c).map fun x => ([.mk v.name x.1 c.offset], x.2) := by
    rw [Grammar.scanner, read?_located, Grammar.valueScanner]
    rfl
  rw [hscan]
  constructor
  · intro h
    obtain ⟨⟨captured, behind⟩, hread, heq⟩ := Option.map_eq_some_iff.mp h
    obtain ⟨value, hlongest, rfl, hpass⟩ := read?_enumChoices.mp hread
    cases heq
    exact ⟨value, hlongest, rfl, hpass⟩
  · rintro ⟨value, hlongest, rfl, hpass⟩
    rw [read?_enumChoices.mpr ⟨value, hlongest, rfl, hpass⟩]
    rfl

/-- An enumeration is read where one of its values stands in front, and the longest such value is
read. So a value that is drafted is read back, unless it begins a longer one together with what
stands behind it. -/
theorem reads_longest (v : EnumVariable) (kind : TemplateKind)
    (compile : String → List Node → Compiling Unit) (s : CompileState) :
    ∃ g, Yields (Compiling.node kind compile (.enumVariable v)) s g s ∧
      ∀ (context : ScanContext) (compound : String → Scanner Char Captured),
        (∀ c, (∃ x, read? (g.scanner context compound) c = some x) ↔
          ∃ value ∈ v.values, value.toList <+: c.rest) ∧
        (∀ c slots next, read? (g.scanner context compound) c = some (slots, next) ↔
          ∃ value, Longest v.values c.rest value ∧
            slots = [.mk v.name (.value (.str value)) c.offset] ∧ c.Passes value.toList next) ∧
        ∀ scope state docs state', Yields (Drafting.enumVariable v scope) state docs state' →
          ∃ value ∈ v.values, Drafting.field? scope v.name = some (.str value) ∧
            ∀ bullet margin offset rest,
              read? (g.scanner context compound)
                  ⟨offset, Markdown.inlines bullet margin docs ++ rest⟩ =
                some ([.mk v.name (.value (.str value)) offset], ⟨offset + value.length, rest⟩) ↔
              v.Ended value rest := by
  refine ⟨.slot v.name (.enum v.values), ?_, fun context compound => ⟨fun c => ?_, ?_, ?_⟩⟩
  · rw [Compiling.node]
    exact yields_pure.mpr ⟨rfl, rfl⟩
  · rw [← exists_longest_iff]
    constructor
    · rintro ⟨⟨slots, next⟩, h⟩
      obtain ⟨value, hlongest, -⟩ := (read?_slot context compound v c next slots).mp h
      exact ⟨value, hlongest⟩
    · rintro ⟨value, hlongest⟩
      obtain ⟨rest, hrest⟩ := hlongest.front
      have hpass : c.Passes value.toList ⟨c.offset + value.toList.length, rest⟩ := ⟨hrest.symm, rfl⟩
      exact ⟨_, (read?_slot context compound v c _ _).mpr ⟨value, hlongest, rfl, hpass⟩⟩
  · exact fun c slots next => read?_slot context compound v c next slots
  · intro scope state docs state' h
    obtain ⟨value, hmem, hfield, rfl, -⟩ := Drafting.yields_enumVariable h
    refine ⟨value, hmem, hfield, fun bullet margin offset rest => ?_⟩
    have htext : Markdown.inlines bullet margin [Drafting.fragment value.toList] = value.toList := by
      simp [Markdown.inlines, Markdown.rendered, Drafting.fragment, Markdown.leafText]
    rw [htext, read?_slot, ← longest_iff_ended hmem rest]
    constructor
    · rintro ⟨other, hother, heq, -⟩
      cases heq
      exact hother
    · intro hlongest
      refine ⟨value, hlongest, rfl, rfl, ?_⟩
      rw [String.length_toList]

end EnumVariable

namespace Shirt

/-- Each size begins the next one. -/
def size : EnumVariable := ⟨"size", "Size", ["S", "SM", "SMALL"], []⟩

def shirt : Json := .obj [("size", .str "S")]

def table : Table := .empty ⟨[.enumeration "Size" ["S", "SM", "SMALL"]]⟩ .standard

def context : ScanContext := ⟨0, ⟨0, 0, 0⟩⟩

def compound (_ : String) : Scanner Char Captured := fun c => .failure (unexpected [] c)

/-- The smallest size is read back in front of a dash, and in front of an `M` it is not. -/
theorem reads_longest_shirt :
    Yields (Drafting.enumVariable size shirt) ⟨table, 0⟩ [Drafting.fragment ['S']] ⟨table, 0⟩ ∧
      ∃ g, Yields (Compiling.node .clause (fun _ _ => pure ()) (.enumVariable size))
          (Compiling.start table) g (Compiling.start table) ∧
        read? (g.scanner context compound) ⟨0, ['S', '-']⟩ =
          some ([.mk "size" (.value (.str "S")) 0], ⟨1, ['-']⟩) ∧
        read? (g.scanner context compound) ⟨0, ['S', 'M']⟩ ≠
          some ([.mk "size" (.value (.str "S")) 0], ⟨1, ['M']⟩) := by
  have hdraft :
      Yields (Drafting.enumVariable size shirt) ⟨table, 0⟩ [Drafting.fragment ['S']] ⟨table, 0⟩ :=
    rfl
  obtain ⟨g, hg, hreads⟩ :=
    EnumVariable.reads_longest size .clause (fun _ _ => pure ()) (Compiling.start table)
  obtain ⟨-, -, hback⟩ := hreads context compound
  obtain ⟨value, -, hfield, hiff⟩ := hback _ _ _ _ hdraft
  have hshown : Drafting.field? shirt size.name = some (.str "S") := rfl
  obtain rfl : "S" = value := by
    rw [hshown] at hfield
    cases hfield
    rfl
  refine ⟨hdraft, g, hg, (hiff '-' [] 0 ['-']).mpr (by decide), fun h => ?_⟩
  exact absurd ((hiff '-' [] 0 ['M']).mp h) (by decide)

end Shirt

end ClauseTemplates
