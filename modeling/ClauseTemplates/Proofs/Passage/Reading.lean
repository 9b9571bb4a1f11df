import ClauseTemplates.Proofs.Grammar.Fails
import ClauseTemplates.Proofs.Grammar.Settled
import ClauseTemplates.Proofs.Parsing.Static
import ClauseTemplates.Proofs.Passage.Basic

namespace ClauseTemplates

open Scan Markdown Drafting

namespace Passage

/-- None of the lines stands at the beginning of the text, and no separator does. -/
def Foreign (lines : List (List Char)) (text : List Char) : Prop :=
  (∀ line ∈ lines, ¬ line <+: text) ∧ ¬ blockSeparator [] <+: text

/-- Behind blocks stands nothing, or a separator and text that is foreign to them. -/
def Beyond (lines : List (List Char)) (rest : List Char) : Prop :=
  rest = [] ∨ ∃ text, rest = blockSeparator [] ++ text ∧ Foreign lines text

/-- Lines that are told apart by how they begin. -/
structure Distinct (lines : List (List Char)) : Prop where
  line : ∀ line ∈ lines, line ≠ [] ∧ '\n' ∉ line
  apart : lines.Pairwise fun line other => ¬ line <+: other ∧ ¬ other <+: line

variable {lines more : List (List Char)} {line text rest : List Char}

theorem Foreign.subset (h : Foreign more text) (hsub : lines ⊆ more) : Foreign lines text :=
  ⟨fun line hmem => h.1 line (hsub hmem), h.2⟩

theorem Beyond.subset (h : Beyond more rest) (hsub : lines ⊆ more) : Beyond lines rest :=
  h.imp id fun ⟨text, heq, hforeign⟩ => ⟨text, heq, hforeign.subset hsub⟩

/-- Behind a separator stands foreign text. -/
theorem Beyond.foreign (h : Beyond lines (blockSeparator [] ++ text)) : Foreign lines text := by
  rcases h with h | ⟨other, h, hforeign⟩
  · cases h
  · rw [List.append_cancel_left h]
    exact hforeign

theorem Distinct.left (h : Distinct (lines ++ more)) : Distinct lines :=
  ⟨fun line hmem => h.line line (List.mem_append_left _ hmem), (List.pairwise_append.mp h.apart).1⟩

theorem Distinct.right (h : Distinct (lines ++ more)) : Distinct more :=
  ⟨fun line hmem => h.line line (List.mem_append_right _ hmem), (List.pairwise_append.mp h.apart).2.1⟩

theorem not_separator (hne : line ≠ []) (hline : '\n' ∉ line) (rest : List Char) :
    ¬ blockSeparator [] <+: line ++ rest := by
  intro h
  cases line with
  | nil => exact hne rfl
  | cons c cs =>
    have hhead := (List.cons_prefix_cons.mp h).1
    subst hhead
    exact hline List.mem_cons_self

/-- Behind a line stands no other line. -/
theorem Distinct.foreign (h : Distinct (lines ++ more)) (hmem : line ∈ more)
    (hrest : rest = [] ∨ rest.head? = some '\n') : Foreign lines (line ++ rest) := by
  obtain ⟨hne, hline⟩ := h.line line (List.mem_append_right _ hmem)
  refine ⟨fun other hother hprefix => ?_, not_separator hne hline rest⟩
  obtain ⟨_, hotherline⟩ := h.line other (List.mem_append_left _ hother)
  obtain ⟨hnot, _⟩ := (List.pairwise_append.mp h.apart).2.2 other hother line hmem
  rcases List.prefix_or_prefix_of_prefix hprefix (List.prefix_append line rest) with hle | hle
  · exact hnot hle
  · obtain ⟨tail, rfl⟩ := hle
    have htail : tail <+: rest := (List.prefix_append_right_inj line).mp hprefix
    cases tail with
    | nil => exact hnot (by simp)
    | cons c tail =>
      have hc : c = '\n' := by
        obtain ⟨end', rfl⟩ := htail
        simpa using hrest
      subst hc
      exact hotherline (by simp)

theorem foreign_nil (h : Distinct lines) : Foreign lines [] := by
  refine ⟨fun line hmem hprefix => (h.line line hmem).1 (List.prefix_nil.mp hprefix), fun hprefix => ?_⟩
  exact absurd (List.prefix_nil.mp hprefix) (by decide)

/-- What stands behind the first blocks, where other blocks stand behind them. -/
theorem Distinct.beyond (h : Distinct (lines ++ more)) {ts : List (List Char)} (hts : ts ⊆ more)
    (hrest : Beyond (lines ++ more) rest) : Beyond lines (laterText [] ts ++ rest) := by
  cases ts with
  | nil => exact hrest.subset (List.subset_append_left lines more)
  | cons t ts =>
    refine Or.inr ⟨t ++ (laterText [] ts ++ rest), by simp [laterText], ?_⟩
    refine h.foreign (hts List.mem_cons_self) ?_
    cases ts with
    | nil =>
      rcases hrest with rfl | ⟨text, rfl, _⟩
      · exact Or.inl rfl
      · exact Or.inr rfl
    | cons other ts => exact Or.inr rfl

section

variable {schema : Schema} {settings : Settings} {scan : ScanContext}
  {scanner : String → Scanner Char Captured}

/-- A paragraph is not read from another text. -/
theorem fails_paragraph (hc : ∀ type, (scanner type).Advances) {docs : List Doc}
    (static : Doc.StaticAll docs) (regionless : Doc.RegionlessAll docs)
    (h : ¬ rendered settings.bullet [] (.node .paragraph docs) <+: text) :
    Grammar.Fails scan scanner
      (Grammar.ofNode schema .clause settings [] (.ofDoc (.node .paragraph docs))) text := by
  intro offset
  cases hread : Scanner.read? ((Grammar.ofNode schema .clause settings []
      (.ofDoc (.node .paragraph docs))).scanner scan scanner) ⟨offset, text⟩ with
  | none => rfl
  | some x =>
    obtain ⟨slots, next⟩ := x
    obtain ⟨w, hpass, hspells⟩ := Grammar.scanner_spells hc _ _ next slots hread
    have hw := Grammar.fixed_ofDoc schema .clause settings (.node .paragraph docs) [] static
      ⟨rfl, regionless⟩ w slots hspells
    subst hw
    exact absurd ⟨next.rest, hpass.1.symm⟩ h

mutual

/-- Nothing of a block is read from foreign text. -/
theorem idles_node (hc : ∀ type, (scanner type).Advances) : ∀ p : Passage, Foreign (p.lines settings.bullet) text →
    Grammar.Idles scan scanner (Grammar.ofNode schema .clause settings [] p.node) text
  | paragraph docs static regionless, h =>
    (fails_paragraph hc static regionless (h.1 _ List.mem_cons_self)).idles
  | clause name type src condition children, h => by
    rw [node, Grammar.ofNode, if_neg (by decide)]
    exact (Grammar.idles_first h.2 (idles_each hc children h)).slot _ _ _

theorem idles_each (hc : ∀ type, (scanner type).Advances) :
    ∀ ps : List Passage, Foreign (linesAll settings.bullet ps) text →
    ∀ block ∈ Grammar.ofEach schema .clause settings [] (nodes ps),
      Grammar.Idles scan scanner block.1 text
  | [], _ => by simp [nodes, Grammar.ofEach]
  | p :: rest, h => by
    rw [nodes, Grammar.ofEach]
    refine List.forall_mem_cons.mpr ⟨idles_node hc p ?_, idles_each hc rest ?_⟩
    · exact h.subset (List.subset_append_left _ _)
    · exact h.subset (List.subset_append_right _ _)

end

mutual

/-- A block that is filled is not read from foreign text. -/
theorem fails_node (hc : ∀ type, (scanner type).Advances) : ∀ p : Passage, p.Filled → Foreign (p.lines settings.bullet) text →
    Grammar.Fails scan scanner (Grammar.ofNode schema .clause settings [] p.node) text
  | paragraph docs static regionless, _, h =>
    fails_paragraph hc static regionless (h.1 _ List.mem_cons_self)
  | clause name type src condition children, hfilled, h => by
    rw [node, Grammar.ofNode, if_neg (by decide)]
    exact (Grammar.fails_first h.2 (idles_each hc children h) (fails_each hc children hfilled h)).slot _ _ _

theorem fails_each (hc : ∀ type, (scanner type).Advances) :
    ∀ ps : List Passage, SolidAny ps → Foreign (linesAll settings.bullet ps) text →
    ∃ block ∈ Grammar.ofEach schema .clause settings [] (nodes ps),
      block.2 = false ∧ Grammar.Fails scan scanner block.1 text
  | [], hsolid, _ => hsolid.elim
  | p :: rest, hsolid, h => by
    rw [nodes, Grammar.ofEach]
    rcases hsolid with hsolid | hsolid
    · refine ⟨_, List.mem_cons_self, hsolid.not_elidable, fails_node hc p hsolid.filled ?_⟩
      exact h.subset (List.subset_append_left _ _)
    · obtain ⟨block, hmem, hblock⟩ := fails_each hc rest hsolid (h.subset (List.subset_append_right _ _))
      exact ⟨block, List.mem_cons_of_mem _ hmem, hblock⟩

end

theorem exists_present : ∀ ps : List Passage, SolidAny ps →
    ∃ block ∈ Grammar.ofEach schema .clause settings [] (nodes ps), block.2 = false
  | [], hsolid => hsolid.elim
  | p :: rest, hsolid => by
    rw [nodes, Grammar.ofEach]
    rcases hsolid with hsolid | hsolid
    · exact ⟨_, List.mem_cons_self, hsolid.not_elidable⟩
    · obtain ⟨block, hmem, hblock⟩ := exists_present rest hsolid
      exact ⟨block, List.mem_cons_of_mem _ hmem, hblock⟩

/-- A block that is left out is not read together with those behind it. -/
theorem fails_absent (hc : ∀ type, (scanner type).Advances)
    {p : Passage} {ps : List Passage} (htight : p.Filled ∨ p.Elidable ∧ SolidAny ps)
    (h : Foreign (p.lines settings.bullet) text) :
    Grammar.Fails scan scanner (.seq (Grammar.ofNode schema .clause settings [] p.node)
      (Compiling.assemble (blockSeparator []) (Grammar.ofEach schema .clause settings [] (nodes ps))).2)
      text := by
  rcases htight with hfilled | ⟨_, hsolid⟩
  · exact (fails_node hc p hfilled h).seq _
  · exact (idles_node hc p h).seq_fails (Grammar.fails_later h.2 (exists_present ps hsolid))

/-- A block that may be left out shows nothing, and one that shows nothing may be left out. -/
theorem elidable_of_nil {draft : DraftContext} (hkind : draft.kind = .clause)
    {compound : List Char → List Node → Json → Option (List (List Char))} {p : Passage} {ps : List Passage}
    (htight : p.Filled ∨ p.Elidable ∧ SolidAny ps) {scope : Json}
    (h : texts? schema settings.bullet draft compound [] p.node scope = some []) :
    Compiling.isElidable .clause p.node = true := by
  cases p with
  | paragraph docs static regionless =>
    rw [node, texts?_ofDoc] at h
    cases h
  | clause name type src condition children =>
    rcases texts_clause hkind h with ⟨hcondition, _⟩ | ⟨value, hvalue⟩
    · simp [node, Compiling.isElidable, hcondition]
    · rcases htight with hfilled | ⟨helidable, _⟩
      · exact absurd rfl (textsAll_of_solid hkind children value [] hfilled hvalue)
      · exact helidable

variable {draft : DraftContext} {compound : List Char → List Node → Json → Option (List (List Char))}

mutual

/-- A block that shows something is read up to what stands behind it. -/
theorem reads_node (hc : ∀ type, (scanner type).Advances) (hkind : draft.kind = .clause) :
    ∀ (p : Passage) (scope : Json) (ts : List (List Char)) (rest : List Char), p.Tight → p.Apart →
    Distinct (p.lines settings.bullet) → Beyond (p.lines settings.bullet) rest →
    texts? schema settings.bullet draft compound [] p.node scope = some ts → ts ≠ [] →
    ∃ slots, Slot.Settled p.name?.toList slots ∧
      Grammar.Reads scan scanner (Grammar.ofNode schema .clause settings [] p.node) rest
        (blockText [] ts) slots
  | paragraph docs static regionless, scope, ts, rest, _, _, _, _, h, _ => by
    rw [node, texts?_ofDoc] at h
    cases h
    have hread : Grammar.Reads scan scanner (Grammar.ofNode schema .clause settings []
        (.ofDoc (.node .paragraph docs))) rest (rendered settings.bullet [] (.node .paragraph docs)) [] :=
      Grammar.reads_ofDoc schema .clause settings (.node .paragraph docs) [] rest static
    refine ⟨[], Slot.Settled.nil _, ?_⟩
    rw [blockText, laterText, List.flatMap_nil, List.append_nil]
    exact hread
  | clause name type src condition children, scope, ts, rest, htight, ⟨hnames, hclass, hapart⟩,
      hdistinct, hrest, h, hne => by
    rcases texts_clause hkind h with ⟨_, hnil⟩ | ⟨value, hvalue⟩
    · exact absurd hnil hne
    · obtain ⟨slots, hsettled, hfirst, _⟩ :=
        reads_blocks hc hkind children value ts rest htight hapart hdistinct hrest hvalue
      have hread := ((hfirst (Or.inl hne)).record type (some settings.clauseIdentifier)).slot name
      refine ⟨_, Slot.Settled.single name (hsettled.settles_record hnames hclass type
        (some settings.clauseIdentifier)), ?_⟩
      rw [node, Grammar.ofNode, if_neg (by decide)]
      exact hread

/-- Blocks are read up to what stands behind them, those that are left out with their separators. -/
theorem reads_blocks (hc : ∀ type, (scanner type).Advances) (hkind : draft.kind = .clause) :
    ∀ (ps : List Passage) (scope : Json) (ts : List (List Char)) (rest : List Char), TightAll ps →
    ApartAll ps → Distinct (linesAll settings.bullet ps) → Beyond (linesAll settings.bullet ps) rest →
    textsAll? schema settings.bullet draft compound [] (nodes ps) scope = some ts →
    ∃ slots, Slot.Settled (ps.filterMap name?) slots ∧
      (ts ≠ [] ∨ rest = [] → Grammar.Reads scan scanner (Compiling.assemble (blockSeparator [])
        (Grammar.ofEach schema .clause settings [] (nodes ps))).1 rest (blockText [] ts) slots) ∧
      Grammar.Reads scan scanner (Compiling.assemble (blockSeparator [])
        (Grammar.ofEach schema .clause settings [] (nodes ps))).2 rest (laterText [] ts) slots
  | [], scope, ts, rest, _, _, _, _, h => by
    cases h
    exact ⟨[], Slot.Settled.nil _, fun _ => Grammar.reads_nothing rest, Grammar.reads_nothing rest⟩
  | p :: ps, scope, ts, rest, ⟨htightp, htight, htightps⟩, ⟨hapartp, hapartps⟩, hdistinct, hrest, h => by
    rw [nodes, textsAll?] at h
    obtain ⟨tp, htp, h⟩ := Option.bind_eq_some_iff.mp h
    obtain ⟨tm, htm, rfl⟩ := Option.map_eq_some_iff.mp h
    rw [linesAll] at hdistinct hrest
    have hsub : tm ⊆ linesAll settings.bullet ps := textsAll_subset hkind ps scope tm htm
    obtain ⟨more, hmore, hfirst, hlater⟩ := reads_blocks hc hkind ps scope tm rest htightps hapartps
      hdistinct.right (hrest.subset (List.subset_append_right _ _)) htm
    have hbehind := hdistinct.beyond hsub hrest
    have hfilter : (p :: ps).filterMap name? = p.name?.toList ++ ps.filterMap name? := by
      cases hname : p.name? <;> simp [hname]
    rw [hfilter, nodes, Grammar.ofEach]
    cases tp with
    | cons t tp =>
      have hne : t :: tp ≠ [] := by simp
      obtain ⟨slots, hslots, hread⟩ := reads_node hc hkind p scope (t :: tp) _ htightp hapartp
        hdistinct.left hbehind htp hne
      obtain ⟨hblock, hblocks⟩ := Grammar.reads_present (Compiling.isElidable .clause p.node) hread hlater
      refine ⟨slots ++ more, hslots.append hmore, fun _ => ?_, ?_⟩
      · rw [blockText_append [] hne]
        exact hblock
      · rw [laterText_append, laterText_of_ne [] hne, List.append_assoc]
        exact hblocks
    | nil =>
      rw [elidable_of_nil hkind htight htp]
      refine ⟨more, (Slot.Settled.nil p.name?.toList).append hmore, fun hshown => ?_, ?_⟩
      · refine Grammar.reads_absent_first (fun offset => ?_) (hfirst hshown)
        have hforeign : Foreign (p.lines settings.bullet) (blockText [] tm ++ rest) := by
          cases tm with
          | nil =>
            obtain rfl : rest = [] := hshown.resolve_left (by simp)
            exact foreign_nil hdistinct.left
          | cons t tm =>
            rw [laterText_of_ne [] (by simp), List.append_assoc] at hbehind
            exact hbehind.foreign
        exact fails_absent hc htight hforeign offset
      · refine Grammar.reads_absent_later (fun next hnext => ?_) hlater
        have hforeign : Foreign (p.lines settings.bullet) next.rest := by
          rw [← List.nil_append tm, hnext] at hbehind
          exact hbehind.foreign
        exact fails_absent hc htight hforeign next.offset

end

end

end Passage

end ClauseTemplates
