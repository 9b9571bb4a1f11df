import Mathlib
import ClauseTemplates.Proofs.Parsing.Captured
import ClauseTemplates.Proofs.Template.Static

namespace ClauseTemplates

open Markdown Json

namespace Grammar

variable {context : ScanContext} {compound : String → Scanner Char Captured}
  (schema : Schema) (kind : TemplateKind) (settings : Settings)

theorem ofLeaf_eq (margin : List Char) {l : Leaf} (h : l.isFormula = false) :
    ofLeaf margin l = .text (leafText margin l) := by
  cases l with
  | formula name value => cases h
  | _ => rfl

theorem isElidable_ofDoc (doc : Doc) : Compiling.isElidable kind (.ofDoc doc) = false := by
  cases doc <;> rfl

/-- Documents have no conditions, so none of their blocks may be left out. -/
theorem ofBlocks_ofDocs (margin : List Char) (doc : Doc) (rest : List Doc) :
    ofBlocks margin (ofEach schema kind settings margin (Node.ofDocs (doc :: rest))) =
      .seq (ofNode schema kind settings margin (.ofDoc doc))
        (Compiling.assemble (blockSeparator margin)
          (ofEach schema kind settings margin (Node.ofDocs rest))).2 := by
  rw [Node.ofDocs, ofEach, isElidable_ofDoc, ofBlocks, assemble_present]

theorem assemble_ofDocs (margin : List Char) (doc : Doc) (rest : List Doc) :
    (Compiling.assemble (blockSeparator margin)
        (ofEach schema kind settings margin (Node.ofDocs (doc :: rest)))).2 =
      .seq (.text (blockSeparator margin)) (.seq (ofNode schema kind settings margin (.ofDoc doc))
        (Compiling.assemble (blockSeparator margin)
          (ofEach schema kind settings margin (Node.ofDocs rest))).2) := by
  rw [Node.ofDocs, ofEach, isElidable_ofDoc, assemble_present]

mutual

/-- The grammar of a document reads what the document is rendered to, whatever stands behind. -/
theorem reads_ofDoc : ∀ (doc : Doc) (margin rest : List Char), doc.Static →
    Reads context compound (ofNode schema kind settings margin (.ofDoc doc)) rest
      (rendered settings.bullet margin doc) []
  | .leaf l, margin, rest, h => by
    rw [Node.ofDoc, ofNode, ofLeaf_eq margin h]
    exact reads_text _ rest
  | .node frame children, margin, rest, h => by
    have hblocks (rest : List Char) := reads_ofDocs children margin rest h
    have hinlines (rest : List Char) := reads_inlines_ofDocs children margin rest h
    rw [Node.ofDoc]
    cases frame with
    | document data =>
      rw [ofNode, rendered]
      exact hblocks rest
    | item =>
      rw [ofNode, rendered]
      exact hblocks rest
    | paragraph =>
      rw [ofNode, rendered]
      exact hinlines rest
    | heading level =>
      rw [ofNode, rendered]
      exact (hinlines rest).after _
    | blockQuote =>
      rw [ofNode, rendered]
      exact (reads_ofDocs children (margin ++ quoteMark) rest h).after _
    | list listKind start =>
      rw [ofNode, rendered, items_eq]
      exact reads_items_ofDocs listKind children [] start.toNat margin rest h
    | clause name src data =>
      rw [ofNode, rendered_clause]
      refine reads_region name src ?_ fun _ => rfl
      rw [← blocks_eq]
      exact hblocks _
    | emph =>
      rw [ofNode, rendered]
      exact (hinlines _).enclosed ['*'] ['*']
    | strong =>
      rw [ofNode, rendered]
      exact (hinlines _).enclosed ['*', '*'] ['*', '*']

theorem reads_ofDocs : ∀ (docs : List Doc) (margin rest : List Char), Doc.StaticAll docs →
    Reads context compound (ofBlocks margin (ofEach schema kind settings margin (Node.ofDocs docs)))
      rest (blocks settings.bullet margin docs) []
  | [], margin, rest, _ => reads_nothing rest
  | doc :: docs, margin, rest, h => by
    rw [ofBlocks_ofDocs, blocks]
    exact (reads_ofDoc doc margin _ h.1).seq (reads_later_ofDocs docs margin rest h.2)

theorem reads_later_ofDocs : ∀ (docs : List Doc) (margin rest : List Char), Doc.StaticAll docs →
    Reads context compound (Compiling.assemble (blockSeparator margin)
        (ofEach schema kind settings margin (Node.ofDocs docs))).2
      rest (laterBlocks settings.bullet margin docs) []
  | [], margin, rest, _ => reads_nothing rest
  | doc :: docs, margin, rest, h => by
    rw [assemble_ofDocs, laterBlocks, List.append_assoc]
    exact ((reads_ofDoc doc margin _ h.1).seq (reads_later_ofDocs docs margin rest h.2)).after _

theorem reads_inlines_ofDocs : ∀ (docs : List Doc) (margin rest : List Char), Doc.StaticAll docs →
    Reads context compound (ofInlines schema kind settings margin (Node.ofDocs docs)) rest
      (inlines settings.bullet margin docs) []
  | [], margin, rest, _ => reads_nothing rest
  | doc :: docs, margin, rest, h => by
    rw [Node.ofDocs, ofInlines, inlines]
    exact (reads_ofDoc doc margin _ h.1).seq (reads_inlines_ofDocs docs margin rest h.2)

theorem reads_items_ofDocs (listKind : ListKind) : ∀ (docs : List Doc) (lead : List Char)
    (number : Nat) (margin rest : List Char), Doc.StaticAll docs →
    Reads context compound
      (ofItems schema kind settings margin listKind lead number (Node.ofDocs docs)) rest
      (itemText settings.bullet margin listKind lead number
        (texts settings.bullet (margin ++ itemIndent listKind) docs)) []
  | [], lead, number, margin, rest, _ => reads_nothing rest
  | doc :: docs, lead, number, margin, rest, h => by
    rw [Node.ofDocs, ofItems, texts, List.map_cons, itemText, List.append_assoc]
    have hrest := reads_items_ofDocs listKind docs (newline margin) (number + 1) margin rest h.2
    have hnothing := hrest.seq (reads_nothing rest)
    rw [List.append_nil] at hnothing
    exact ((reads_ofDoc doc _ _ h.1).seq hnothing).after _

end

/-- The grammar has no other text than this one, and shows nothing. -/
def Fixed (context : ScanContext) (compound : String → Scanner Char Captured) (g : Grammar)
    (w : List Char) : Prop :=
  ∀ v slots, g.Spells context compound v slots → v = w

section

variable {first second body : Grammar} {v w : List Char}

theorem fixed_text (chars : List Char) : Fixed context compound (.text chars) chars :=
  fun _ _ h => h.1

theorem Fixed.seq (h : Fixed context compound first v) (h' : Fixed context compound second w) :
    Fixed context compound (.seq first second) (v ++ w) := by
  rintro _ _ ⟨v₁, v₂, slots₁, slots₂, rfl, -, h₁, h₂⟩
  rw [h v₁ slots₁ h₁, h' v₂ slots₂ h₂]

theorem Fixed.after (chars : List Char) (h : Fixed context compound second w) :
    Fixed context compound (.seq (.text chars) second) (chars ++ w) := (fixed_text chars).seq h

theorem Fixed.enclosed (before after : List Char) (h : Fixed context compound body w) :
    Fixed context compound (.concat [.text before, body, .text after]) (before ++ w ++ after) := by
  intro v slots hv
  obtain ⟨u, rfl, hu⟩ := spells_enclosed hv
  rw [h u slots hu]

end

mutual

/-- Without clause regions a document has one text. -/
theorem fixed_ofDoc : ∀ (doc : Doc) (margin : List Char), doc.Static → doc.Regionless →
    Fixed context compound (ofNode schema kind settings margin (.ofDoc doc))
      (rendered settings.bullet margin doc)
  | .leaf l, margin, h, _ => by
    rw [Node.ofDoc, ofNode, ofLeaf_eq margin h]
    exact fixed_text _
  | .node frame children, margin, h, hr => by
    obtain ⟨hframe, hr⟩ := hr
    have hblocks := fixed_ofDocs children margin h hr
    have hinlines := fixed_inlines_ofDocs children margin h hr
    rw [Node.ofDoc]
    cases frame with
    | document data =>
      rw [ofNode, rendered]
      exact hblocks
    | item =>
      rw [ofNode, rendered]
      exact hblocks
    | paragraph =>
      rw [ofNode, rendered]
      exact hinlines
    | heading level =>
      rw [ofNode, rendered]
      exact hinlines.after _
    | blockQuote =>
      rw [ofNode, rendered]
      exact (fixed_ofDocs children (margin ++ quoteMark) h hr).after _
    | list listKind start =>
      rw [ofNode, rendered, items_eq]
      exact fixed_items_ofDocs listKind children [] start.toNat margin h hr
    | clause name src data => cases hframe
    | emph =>
      rw [ofNode, rendered]
      exact hinlines.enclosed ['*'] ['*']
    | strong =>
      rw [ofNode, rendered]
      exact hinlines.enclosed ['*', '*'] ['*', '*']

theorem fixed_ofDocs : ∀ (docs : List Doc) (margin : List Char), Doc.StaticAll docs →
    Doc.RegionlessAll docs → Fixed context compound
      (ofBlocks margin (ofEach schema kind settings margin (Node.ofDocs docs)))
      (blocks settings.bullet margin docs)
  | [], margin, _, _ => fixed_text []
  | doc :: docs, margin, h, hr => by
    rw [ofBlocks_ofDocs, blocks]
    exact (fixed_ofDoc doc margin h.1 hr.1).seq (fixed_later_ofDocs docs margin h.2 hr.2)

theorem fixed_later_ofDocs : ∀ (docs : List Doc) (margin : List Char), Doc.StaticAll docs →
    Doc.RegionlessAll docs → Fixed context compound (Compiling.assemble (blockSeparator margin)
        (ofEach schema kind settings margin (Node.ofDocs docs))).2
      (laterBlocks settings.bullet margin docs)
  | [], margin, _, _ => fixed_text []
  | doc :: docs, margin, h, hr => by
    rw [assemble_ofDocs, laterBlocks, List.append_assoc]
    exact ((fixed_ofDoc doc margin h.1 hr.1).seq (fixed_later_ofDocs docs margin h.2 hr.2)).after _

theorem fixed_inlines_ofDocs : ∀ (docs : List Doc) (margin : List Char), Doc.StaticAll docs →
    Doc.RegionlessAll docs →
    Fixed context compound (ofInlines schema kind settings margin (Node.ofDocs docs))
      (inlines settings.bullet margin docs)
  | [], margin, _, _ => fixed_text []
  | doc :: docs, margin, h, hr => by
    rw [Node.ofDocs, ofInlines, inlines]
    exact (fixed_ofDoc doc margin h.1 hr.1).seq (fixed_inlines_ofDocs docs margin h.2 hr.2)

theorem fixed_items_ofDocs (listKind : ListKind) : ∀ (docs : List Doc) (lead : List Char)
    (number : Nat) (margin : List Char), Doc.StaticAll docs → Doc.RegionlessAll docs →
    Fixed context compound
      (ofItems schema kind settings margin listKind lead number (Node.ofDocs docs))
      (itemText settings.bullet margin listKind lead number
        (texts settings.bullet (margin ++ itemIndent listKind) docs))
  | [], lead, number, margin, _, _ => fixed_text []
  | doc :: docs, lead, number, margin, h, hr => by
    rw [Node.ofDocs, ofItems, texts, List.map_cons, itemText, List.append_assoc]
    have hrest := fixed_items_ofDocs listKind docs (newline margin) (number + 1) margin h.2 hr.2
    have hnothing := hrest.seq (fixed_text [])
    rw [List.append_nil] at hnothing
    exact ((fixed_ofDoc doc _ h.1 hr.1).seq hnothing).after _

end

end Grammar

/-- What parses to no slots is a record of its class with an identifier. -/
theorem Captured.fold_bare (text : List Char) (type identifier : String) (n : Nat) :
    ∃ fields m, (fold text (.record type (some identifier) [])).run n = .ok (.obj fields, m) ∧
      Fields.get? "$class" fields = some (.str type) ∧
      ∀ name, (Fields.get? name fields).isSome ↔ name = "$class" ∨ name = identifier := by
  refine ⟨_, _, run_fold_record.mpr ⟨[("$class", .str type)], n, rfl, rfl, rfl⟩,
    get?_identified_of_some (by rw [Fields.get?_cons, if_pos rfl]), fun name => ?_⟩
  unfold identified
  by_cases hclass : identifier = "$class"
  · simp [hclass, Fields.get?_cons]
  · simp only [Fields.get?_cons, hclass, if_false, Fields.get?_nil, Option.isSome_none,
      Bool.false_eq_true, Fields.get?_insert]
    by_cases hname : name = identifier
    · simp [hname]
    · simp [hname]

namespace Template

/-- A template made of any document is compiled and drafted for all data. The parser accepts the
drafted text with blanks behind it, and without clause regions no other text, and finds nothing
but the class and the identifier. -/
theorem parse_ofDocs {schema : Schema} {type : String} {docs : List Doc} (kind : TemplateKind)
    (htype : schema.isRecord type = true) (hstatic : Doc.StaticAll docs) :
    ∃ t, Template.ofNodes schema kind type (Node.ofDocs docs) = .ok t ∧
      ∀ (context : ScanContext) (table : Table), table.schema = schema → table.Faithful →
        ∃ p, (t.parser context table).1 = .ok p ∧
          ∀ (data : Json) (now : Instant) (s : DraftState), data.isObject = true →
            ∃ doc s', (t.draft data now).run s = (.ok doc, s') ∧
              (∀ (blanks : List Char) (n : Nat), Text.allBlank blanks = true → ∃ fields,
                p.parse (render table.settings.bullet [doc] ++ String.ofList blanks) n =
                  .ok (.obj fields) ∧
                Fields.get? "$class" fields = some (.str type) ∧
                ∀ name, (Fields.get? name fields).isSome ↔
                  name = "$class" ∨ name = t.identifier table.settings) ∧
              (Doc.RegionlessAll docs → ∀ (text : String) (n : Nat) (value : Json),
                p.parse text n = .ok value → ∃ blanks, Text.allBlank blanks = true ∧
                  text = render table.settings.bullet [doc] ++ String.ofList blanks) := by
  refine ⟨_, Template.ofNodes_ofDocs kind docs htype, fun context table hschema hf => ?_⟩
  obtain ⟨p, hp⟩ := @parser_of_compiles ⟨kind, type, Node.ofDocs docs⟩ context table hf
    (Node.compiles_ofDocs table.schema docs)
  refine ⟨p, hp, fun data now s hdata => ?_⟩
  obtain ⟨record, s', hrun⟩ := Template.draft_ofDocs kind type docs hdata now s
  have htext : render table.settings.bullet [.node (.document (some record)) docs] =
      String.ofList (blocks table.settings.bullet [] docs) := by
    rw [render_singleton, rendered]
  refine ⟨_, s', hrun, fun blanks n hblanks => ?_, fun hregionless text n value hv => ?_⟩
  · obtain ⟨hparse, _⟩ := Template.parse_of_reads hf hp hblanks
      (fun compound _ => Grammar.reads_ofDocs table.schema kind table.settings docs [] blanks hstatic) n
    obtain ⟨fields, m, hfold, hfields⟩ := Captured.fold_bare [] type
      ((⟨kind, type, Node.ofDocs docs⟩ : Template).identifier table.settings) n
    refine ⟨fields, ?_, hfields⟩
    rw [htext, ← String.ofList_append]
    exact hparse _ _ hfold
  · obtain ⟨w, blanks, compound, slots, _, _, hw, hblanks, hspells, _⟩ := Template.spelled hf hp hv
    have hfixed := Grammar.fixed_ofDocs table.schema kind table.settings docs [] hstatic hregionless w
      slots hspells
    refine ⟨blanks, hblanks, String.toList_inj.mp ?_⟩
    rw [hw, hfixed, htext, String.toList_append, String.toList_ofList, String.toList_ofList]

end Template

-- Inlines at block level, blocks inside inlines, and a list of other things than items.
namespace Stray

def schema : Schema := ⟨[.concept "Notice" []]⟩

def docs : List Doc :=
  [.node .emph [.node .blockQuote [.leaf (.text "a*"), .leaf .softbreak]],
    .node (.list .ordered 9) [.leaf (.code "b"), .node (.document none) [.leaf .thematicBreak,
      .node (.heading 2) []]]]

def text : String := "*> a\\*\n>\n> \n> *\n\n9. \x60b\x60\n10. ---\n\n   ## "

def context : ScanContext := ⟨0, ⟨0, 0, 0⟩⟩

set_option maxRecDepth 100000 in
/-- The text is accepted with a line break behind it, and only blanks may stand there. -/
theorem parse_ofDocs_stray : ∃ p : TemplateParser,
    (∃ fields, p.parse (text ++ "\n") 4 = .ok (.obj fields) ∧
      ∀ name, (Fields.get? name fields).isSome ↔ name = "$class" ∨ name = "contractId") ∧
    ∀ (other : String) (n : Nat) (value : Json), p.parse other n = .ok value →
      ∃ blanks, Text.allBlank blanks = true ∧ other = text ++ String.ofList blanks := by
  have htype : schema.isRecord "Notice" = true := by decide
  have hstatic : Doc.StaticAll docs := by simp [docs, Doc.StaticAll, Doc.Static, Leaf.isFormula]
  have hregionless : Doc.RegionlessAll docs := by
    simp [docs, Doc.RegionlessAll, Doc.Regionless, Frame.isRegion]
  obtain ⟨t, ht, hall⟩ := Template.parse_ofDocs .contract htype hstatic
  obtain ⟨p, hp, hdraft⟩ := hall context (Table.empty schema .standard) rfl
    (Table.faithful_empty schema .standard)
  obtain ⟨doc, s', hdoc, haccept, honly⟩ := hdraft (.obj []) ⟨0, 0, 0⟩
    ⟨Table.empty schema .standard, 0⟩ rfl
  have hbound := Template.ofNodes_ofDocs .contract docs htype
  obtain rfl := Except.ok.inj (ht.symm.trans hbound)
  have hrender : Markdown.render '-' [doc] = text := by
    obtain ⟨data, s, hrun⟩ := Template.draft_ofDocs .contract "Notice" docs
      (show (Json.obj []).isObject = true from rfl) ⟨0, 0, 0⟩ ⟨Table.empty schema .standard, 0⟩
    rw [Except.ok.inj (Prod.mk.inj (hdoc.symm.trans hrun)).1, render_singleton, rendered]
    cbv
  rw [← hrender]
  obtain ⟨fields, hparse, _, hnames⟩ := haccept ['\n'] 4 (by decide)
  exact ⟨p, ⟨fields, hparse, hnames⟩, honly hregionless⟩

end Stray

end ClauseTemplates
