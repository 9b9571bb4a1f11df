import Mathlib
import ClauseTemplates.Proofs.Grammar.Nested
import ClauseTemplates.Proofs.Parsing.Accepted
import ClauseTemplates.Proofs.Sharing.Memo

namespace ClauseTemplates

open Scan Scanner Compiling

namespace TemplateParser

variable (p : TemplateParser)

/-- Reads a record of a compound type. -/
def record : String → Scanner Char Captured := Grammar.recordScanner p.context p.compounds

/-- Reading a record of the first type at the first place enters one of the second type at the second
place. -/
def Nested : String × Cursor Char → String × Cursor Char → Prop :=
  Grammar.Nested p.context p.compounds

/-- Reads an item of a repetition. -/
def item (r : Region) : Scanner Char Captured := Grammar.valueScanner p.context p.record r.item

theorem advances_item (r : Region) : Advances (p.item r) :=
  Grammar.advances_valueScanner Grammar.advances_recordScanner r.item

/-- Reading the records of compound types ends, however they reach each other. -/
structure WellNested : Prop where
  /-- Some text stands between a record and one inside it. -/
  before : ∀ outer inner, p.Nested outer inner → outer.2.Before inner.2
  /-- So there are no more records inside one another than characters left. -/
  bounded : ∀ outer entries, List.IsChain p.Nested (outer :: entries) →
    entries.length ≤ outer.2.rest.length
  /-- Entering one record from another comes to an end. -/
  wellFounded : WellFounded fun inner outer => p.Nested outer inner
  /-- Nor do the elements of their arrays go on for ever. -/
  progresses : ∀ type g, (type, g) ∈ p.compounds → ∀ r ∈ Grammar.valueRegions g,
    Progresses (p.item r) (exactly r.separator)
  /-- Reading each record by the grammar of its type, as deep as they are, has exactly one meaning. -/
  recursive : ∀ records, Grammar.recordOf p.context p.compounds records = records ↔
    records = p.record
  /-- It is that of every bound above the length of the text. -/
  enough : ∀ fuel type c, c.rest.length < fuel →
    Grammar.compoundScanner p.context p.compounds fuel type c = p.record type c
  /-- Whole texts are read with this meaning. -/
  texts : ∀ c, Grammar.valueScanner p.context
      (Grammar.compoundScanner p.context p.compounds (c.rest.length + 1)) p.root c =
    Grammar.valueScanner p.context p.record p.root c

end TemplateParser

theorem Grammar.mem_of_lookup {compounds : Compounds} {type : String} {g : ValueGrammar}
    (h : compounds.lookup type = some g) : (type, g) ∈ compounds := by
  obtain ⟨before, after, heq, -⟩ := List.lookup_eq_some_iff.mp h
  rw [heq]
  exact List.mem_append_right _ List.mem_cons_self

namespace Template

variable {t : Template} {context : ScanContext} {table : Table} {p : TemplateParser}

/-- For each type, a parser keeps the template of its records. -/
theorem parser_stored (hf : table.Faithful) (hp : (t.parser context table).1 = .ok p) {type : String}
    {g : ValueGrammar} (h : (type, g) ∈ p.compounds) :
    ∃ children, Entry.compile table.schema ⟨type, none⟩ = .ok (.compound type children) ∧
      g = .record type none (Grammar.ofInlines table.schema t.kind table.settings [] children) := by
  obtain ⟨s, hcompounds, -, hs, -⟩ := parser_settles hf hp
  rw [← hcompounds] at h
  obtain ⟨children, hentry, hg, -⟩ := hs.stored type g h
  exact ⟨children, hentry, hg⟩

theorem parser_guarded (hf : table.Faithful) (hp : (t.parser context table).1 = .ok p) :
    Grammar.Guarded p.context p.compounds := by
  intro type g hlookup compound hc c other d henters
  obtain ⟨children, hentry, rfl⟩ := parser_stored hf hp (Grammar.mem_of_lookup hlookup)
  obtain ⟨hlabelled, -⟩ := Entry.compile_labelled hentry
  rw [Grammar.EntersValue] at henters
  exact Grammar.enters_labelled hc [] hlabelled henters

/-- The elements of arrays in records of compound types have text between them. -/
theorem parser_separators (hf : table.Faithful) (hp : (t.parser context table).1 = .ok p)
    {type : String} {g : ValueGrammar} (h : (type, g) ∈ p.compounds) :
    ∀ r ∈ Grammar.valueRegions g, r.separator ≠ [] := by
  obtain ⟨children, hentry, rfl⟩ := parser_stored hf hp h
  obtain ⟨-, hjoins⟩ := Entry.compile_labelled hentry
  exact Grammar.regions_ofInlines (Region.listed_of_separator fun _ h => h) [] children hjoins

end Template

/-- A whole text has room for all the records that are read in it. -/
theorem TemplateParser.valueScanner_root (p : TemplateParser)
    (hg : Grammar.Guarded p.context p.compounds) (c : Cursor Char) :
    Grammar.valueScanner p.context
        (Grammar.compoundScanner p.context p.compounds (c.rest.length + 1)) p.root c =
      Grammar.valueScanner p.context p.record p.root c := by
  refine Grammar.valueScanner_congr_at p.root c fun type d henters => ?_
  have hadvances (type : String) : Advances
      (Grammar.compoundScanner p.context p.compounds (c.rest.length + 1) type) :=
    Grammar.advances_compoundScanner p.compounds _ type
  obtain ⟨w, hw⟩ := Grammar.entersValue_passes hadvances p.root c type d henters
  have hle := hw.length_le
  exact Grammar.compoundScanner_eq_record hg type (by omega)

/-- Records of compound types are read by grammars that refer to each other and to themselves, without
ever going round in circles: a label stands in front of every value, and separators between the
elements of arrays. -/
theorem Template.parser_wellNested {t : Template} {context : ScanContext} {table : Table}
    {p : TemplateParser} (hf : table.Faithful) (hp : (t.parser context table).1 = .ok p) :
    p.WellNested := by
  have hg := Template.parser_guarded hf hp
  constructor
  case before =>
    intro outer inner hnested
    exact hnested.before hg
  case bounded =>
    intro outer entries hchain
    exact Grammar.length_le_of_isChain hg entries outer.1 outer.2 hchain
  case wellFounded => exact Grammar.wellFounded_nested hg
  case progresses =>
    intro type g hstored r hr
    have hseparator := Template.parser_separators hf hp hstored r hr
    exact progresses_exactly hseparator (p.advances_item r)
  case recursive =>
    intro records
    constructor
    · intro h
      exact Grammar.eq_recordScanner hg h
    · intro h
      subst h
      exact Grammar.recordOf_recordScanner hg
  case enough =>
    intro fuel type c hfuel
    exact Grammar.compoundScanner_eq_record hg type hfuel
  case texts => exact p.valueScanner_root hg

namespace Knot

def schema : Schema :=
  ⟨[.concept "Rope" [.plain "end" "Knot"],
    .concept "Knot" [{ Property.plain "next" "Knot" with optional := true }, .plain "twin" "Knot",
      { Property.plain "others" "Knot" with array := true }]]⟩

def template : Template :=
  ⟨.clause, "Rope", [.markup .paragraph [.variable ⟨"end", some "Knot", none, none, []⟩]]⟩

def context : ScanContext := ⟨0, ⟨0, 0, 0⟩⟩

def label : List Char := "next ".toList

def this : Grammar := .seq (.slot thisName (.compound "Knot")) .nothing

def next : Grammar :=
  .either (.slot "next" (.element (some "Knot") (.seq (.text label) this))) .nothing

def others : Grammar :=
  .slot "others" (.items ", ".toList false (.element (some "Knot") this))

/-- A knot is shown by others of all three kinds: one that may be absent, one, and many. -/
def knot : ValueGrammar := .record "Knot" none
  (.seq next (.concat [.text ", twin ".toList, .slot "twin" (.compound "Knot"),
    .text ", others ".toList, .text ['['], others, .text [']']]))

def parser : TemplateParser :=
  ⟨context, [("Knot", knot)],
    .record "Rope" (some "clauseId") (.concat [.concat [.slot "end" (.compound "Knot")]])⟩

def place : Cursor Char := ⟨0 + label.length, label⟩

theorem parser_template :
    (template.parser context (Table.empty schema .standard)).1 = .ok parser := by cbv

/-- Behind the label of the optional knot, the next one begins. -/
theorem nested_label :
    parser.Nested ("Knot", Cursor.start (label ++ label)) ("Knot", place) := by
  have hread : read? ((Grammar.text label).scanner context parser.record)
      (Cursor.start (label ++ label)) = some ([], place) := Grammar.read?_text_append label label 0
  refine ⟨knot, rfl, ?_⟩
  rw [knot, Grammar.EntersValue, Grammar.Enters, next, Grammar.Enters, Grammar.Enters,
    Grammar.EntersValue, Grammar.Enters]
  exact Or.inl (Or.inl (Or.inr ⟨[], place, hread, Or.inl ⟨rfl, rfl⟩⟩))

theorem parser_wellNested_knot :
    (Table.empty schema .standard).Faithful ∧
      (template.parser context (Table.empty schema .standard)).1 = .ok parser ∧
      parser.WellNested ∧
      parser.Nested ("Knot", Cursor.start (label ++ label)) ("Knot", place) := by
  have hf := Table.faithful_empty schema .standard
  exact ⟨hf, parser_template, Template.parser_wellNested hf parser_template, nested_label⟩

end Knot

end ClauseTemplates
