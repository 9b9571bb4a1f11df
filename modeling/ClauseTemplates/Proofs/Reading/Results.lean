import ClauseTemplates.Proofs.Parsing.Static
import ClauseTemplates.Proofs.Reading.Recovered

namespace ClauseTemplates

open Scan Scanner Markdown Json Drafting Captured Folding

namespace Grammar

theorem prefix_of_not_mem {mark body rest : List Char} {c : Char} (hc : c ∉ mark)
    (h : mark <+: body ++ c :: rest) : mark <+: body := by
  induction body generalizing mark with
  | nil =>
    cases mark with
    | nil => simp
    | cons d mark =>
      have hd : d = c := (List.cons_prefix_cons.mp h).1
      simp [hd] at hc
  | cons b body ih =>
    cases mark with
    | nil => simp
    | cons d mark =>
      obtain ⟨hd, hmark⟩ := List.cons_prefix_cons.mp h
      have hrest := ih (fun hmem => hc (List.mem_cons_of_mem d hmem)) hmark
      exact List.cons_prefix_cons.mpr ⟨hd, hrest⟩

/-- The blanks around a result make no closing mark with it. -/
theorem closed_iff (value rest : List Char) :
    (∃ k < (' ' :: (value ++ [' '])).length,
        formulaClose <+: (' ' :: (value ++ [' ']) ++ formulaClose ++ rest).drop k) ↔
      formulaClose <:+: value := by
  have hblank : ' ' ∉ formulaClose := by decide
  constructor
  · rintro ⟨k, hk, hclose⟩
    cases k with
    | zero =>
      have hfirst := (List.cons_prefix_cons.mp hclose).1
      exact absurd hfirst (by decide)
    | succ k =>
      have hle : k ≤ value.length := by simpa using hk
      have htext : (' ' :: (value ++ [' ']) ++ formulaClose ++ rest).drop (k + 1) =
          value.drop k ++ ' ' :: (formulaClose ++ rest) := by
        simp [List.drop_append_of_le_length hle]
      rw [htext] at hclose
      have hvalue : formulaClose <+: value.drop k := prefix_of_not_mem hblank hclose
      exact hvalue.isInfix.trans (List.drop_suffix k value).isInfix
  · rintro ⟨before, after, rfl⟩
    refine ⟨before.length + 1, ?_, ?_⟩
    · simp
      omega
    · simp

variable {context : ScanContext} {compound : String → Scanner Char Captured}

theorem read?_formula (offset : Nat) (text : List Char) :
    read? (formula.scanner context compound) ⟨offset, formulaOpen ++ text⟩ =
      (read? (takeUntil (exactly formulaClose)) ⟨offset + formulaOpen.length, text⟩).map
        fun x => ([], x.2) := by
  rw [scanner, skip, read?_bind, read?_bind, read?_exactly, Option.bind_some]
  cases read? (takeUntil (exactly formulaClose)) ⟨offset + formulaOpen.length, text⟩ <;> rfl

/-- A formula reads exactly the texts of results that do not contain the closing mark. -/
theorem reads_result_iff (name value : String) (margin rest : List Char) :
    Reads context compound .formula rest (leafText margin (.formula name value)) [] ↔
      ¬ formulaClose <:+: value.toList := by
  let body := ' ' :: (value.toList ++ [' '])
  have htext : leafText margin (.formula name value) ++ rest =
      formulaOpen ++ (body ++ formulaClose ++ rest) := by simp [leafText, body]
  have hlength (offset : Nat) : offset + (leafText margin (.formula name value)).length =
      offset + formulaOpen.length + (body ++ formulaClose).length := by
    simp [leafText, body]
    omega
  have hpass (offset : Nat) := Cursor.passes_mk offset (body ++ formulaClose) rest
  rw [← closed_iff value.toList rest]
  constructor
  · intro h hclosed
    obtain ⟨slots, hread, -⟩ := h 0
    rw [htext, hlength, read?_formula] at hread
    obtain ⟨⟨found, next⟩, hfound, hnext⟩ := Option.map_eq_some_iff.mp hread
    cases hnext
    obtain ⟨⟨hrest, -⟩, hfirst⟩ := read?_takeUntil_exactly.mp hfound
    have hbody : found = body := by simpa using hrest.symm
    obtain ⟨k, hk, hclose⟩ := hclosed
    exact hfirst k (by rwa [hbody]) hclose
  · intro hopen offset
    have hfirst : BeforeMark formulaClose ⟨offset + formulaOpen.length, body ++ formulaClose ++ rest⟩
        body ⟨offset + formulaOpen.length + (body ++ formulaClose).length, rest⟩ := by
      refine ⟨hpass _, ?_⟩
      intro k hk hclose
      exact hopen ⟨k, hk, hclose⟩
    refine ⟨[], ?_, rfl⟩
    rw [htext, hlength, read?_formula, read?_takeUntil_exactly.mpr hfirst]
    rfl

end Grammar

namespace Node

mutual

/-- Properties of a record that are texts, truth values or references, among results of formulas and
markup. -/
def Direct : Node → Prop
  | .variable v => v.name ≠ thisName ∧ v.name ≠ "$class" ∧
    (v.identifiedBy.isSome ∨ ∃ type ∈ plainTypes, v.type = some type)
  | .formula _ => True
  | .leaf l => l.isFormula = false
  | .markup _ children => DirectAll children
  | _ => False

def DirectAll : List Node → Prop
  | [] => True
  | n :: rest => n.Direct ∧ DirectAll rest

end

end Node

namespace Drafting

/-- No result contains the mark that closes a formula. -/
def Unclosed (draft : DraftContext) (formulas : List Formula) : Prop :=
  ∀ f ∈ formulas, ∀ value, evaluated? f.code draft.data draft.now = some value →
    ¬ formulaClose <:+: value.display.toList

instance (draft : DraftContext) (formulas : List Formula) : Decidable (Unclosed draft formulas) :=
  decidable_of_iff (∀ f ∈ formulas, ∀ value ∈ evaluated? f.code draft.data draft.now,
    ¬ formulaClose <:+: value.display.toList) Iff.rfl

/-- A record has a text of its own in this field. -/
def Tells (scope : Json) (name : String) : Prop :=
  name ≠ thisName ∧ name ≠ "$class" ∧ ∃ value, field? scope name = some value ∧ value.isText = true

/-- What is shown of a property of a record. -/
def shownSlot (scope : Json) (name : String) : Slot :=
  .mk name (.value ((field? scope name).getD .null)) 0

section

variable {schema : Schema} {bullet : Char} {draft : DraftContext}
  {compound : List Char → List Node → Json → Option (List (List Char))}

theorem unclosed_append {formulas more : List Formula} (h : Unclosed draft (formulas ++ more)) :
    Unclosed draft formulas ∧ Unclosed draft more :=
  ⟨fun f hf => h f (List.mem_append_left more hf), fun f hf => h f (List.mem_append_right formulas hf)⟩

theorem texts_direct {n : Node} {margin : List Char} {scope : Json} {ts : List (List Char)}
    (hd : n.Direct) (h : texts? schema bullet draft compound margin n scope = some ts) :
    ∃ w, ts = [w] := by
  cases n with
  | «variable» v =>
    rw [texts?] at h
    obtain ⟨value, w, _, hts, _⟩ := told_of_texts hd.2.2 h
    exact ⟨w, hts⟩
  | formula f =>
    rw [texts?] at h
    obtain ⟨value, _, hts⟩ := Option.map_eq_some_iff.mp h
    exact ⟨_, hts.symm⟩
  | leaf l =>
    rw [texts?] at h
    cases h
    exact ⟨_, rfl⟩
  | markup frame children =>
    rw [texts?] at h
    obtain ⟨ws, _, hts⟩ := Option.map_eq_some_iff.mp h
    exact ⟨_, hts.symm⟩
  | _ => exact hd.elim

/-- Only where there are no nodes there is no text. -/
theorem eq_nil_of_texts {ns : List Node} {margin : List Char} {scope : Json} (hd : Node.DirectAll ns)
    (h : textsAll? schema bullet draft compound margin ns scope = some []) : ns = [] := by
  cases ns with
  | nil => rfl
  | cons n rest =>
    rw [textsAll?] at h
    obtain ⟨tn, htn, h⟩ := Option.bind_eq_some_iff.mp h
    obtain ⟨tm, _, hnil⟩ := Option.map_eq_some_iff.mp h
    obtain ⟨w, rfl⟩ := texts_direct hd.1 htn
    cases hnil

theorem type_of_texts {margin : List Char} {v : Variable} {scope : Json} {ts : List (List Char)}
    (h : variableTexts? schema compound margin v scope = some ts) : v.type.isSome = true := by
  obtain ⟨type, htype, _⟩ := Option.bind_eq_some_iff.mp h
  rw [htype]
  rfl

theorem compiles_of_told {v : Variable} {value : Json} {w : List Char} (htype : v.type.isSome = true)
    (h : Told schema v value w) : (Node.variable v).Compiles schema := by
  rw [Node.Compiles]
  cases h with
  | reference hid _ => exact ⟨htype, Or.inl hid⟩
  | string s _ hcompile => exact ⟨htype, Or.inr ⟨_, hcompile⟩⟩
  | boolean b _ hcompile => exact ⟨htype, Or.inr ⟨_, hcompile⟩⟩

mutual

/-- What can be drafted is compiled, and has a text in each field that is shown. -/
theorem told_of_direct : ∀ (n : Node) (margin : List Char) (scope : Json) (ts : List (List Char)),
    n.Direct → texts? schema bullet draft compound margin n scope = some ts →
    n.Compiles schema ∧ ∀ name ∈ n.names, Tells scope name
  | .variable v, margin, scope, ts, ⟨hthis, hclass, hv⟩, h => by
    rw [texts?] at h
    have htype := type_of_texts h
    obtain ⟨value, w, hvalue, _, htold⟩ := told_of_texts hv h
    have hcompiles := compiles_of_told htype htold
    have htext := isText_of_told htold
    refine ⟨hcompiles, ?_⟩
    simp [Node.names, Tells, hthis, hclass, hvalue, htext]
  | .formula f, _, _, _, _, _ => by simp [Node.Compiles, Node.names]
  | .leaf l, _, _, _, _, _ => by simp [Node.Compiles, Node.names]
  | .markup frame children, margin, scope, ts, hd, h => by
    rw [texts?] at h
    obtain ⟨ws, hws, _⟩ := Option.map_eq_some_iff.mp h
    rw [Node.Compiles, Node.names]
    exact told_of_directAll children _ scope ws hd hws
  | .enumVariable _, _, _, _, hd, _ => hd.elim
  | .conditional _ _ _ _, _, _, _, hd, _ => hd.elim
  | .optional _ _ _ _, _, _, _, hd, _ => hd.elim
  | .within _ _ _, _, _, _, hd, _ => hd.elim
  | .list _ _ _ _, _, _, _, hd, _ => hd.elim
  | .join _ _ _ _, _, _, _, hd, _ => hd.elim
  | .clause _ _ _ _ _, _, _, _, hd, _ => hd.elim
  | .contract _ _, _, _, _, hd, _ => hd.elim

theorem told_of_directAll : ∀ (ns : List Node) (margin : List Char) (scope : Json)
    (ts : List (List Char)), Node.DirectAll ns →
    textsAll? schema bullet draft compound margin ns scope = some ts →
    Node.CompilesAll schema ns ∧ ∀ name ∈ Node.namesAll ns, Tells scope name
  | [], _, _, _, _, _ => by simp [Node.CompilesAll, Node.namesAll]
  | n :: rest, margin, scope, ts, ⟨hn, hrest⟩, h => by
    rw [textsAll?] at h
    obtain ⟨tn, htn, h⟩ := Option.bind_eq_some_iff.mp h
    obtain ⟨tm, htm, _⟩ := Option.map_eq_some_iff.mp h
    have hnode := told_of_direct n margin scope tn hn htn
    have hlater := told_of_directAll rest margin scope tm hrest htm
    rw [Node.CompilesAll, Node.namesAll]
    refine ⟨⟨hnode.1, hlater.1⟩, ?_⟩
    intro name hname
    rcases List.mem_append.mp hname with hname | hname
    · exact hnode.2 name hname
    · exact hlater.2 name hname

end

end

end Drafting

namespace Grammar

section

variable {schema : Schema} {kind : TemplateKind} {settings : Settings} {draft : DraftContext}
  {compound : List Char → List Node → Json → Option (List (List Char))} {scan : ScanContext}
  {scanner : String → Scanner Char Captured}

mutual

/-- The text of a node is read whatever stands behind it, and shows the properties of the record. -/
theorem reads_direct : ∀ (n : Node) (margin : List Char) (scope : Json) (ts : List (List Char))
    (rest : List Char), n.Direct → n.Refers scope → Unclosed draft (Formulas.collect n) →
    texts? schema settings.bullet draft compound margin n scope = some ts →
    Reads scan scanner (ofNode schema kind settings margin n) rest ts.flatten
      (n.names.map (shownSlot scope))
  | .variable v, margin, scope, ts, rest, ⟨_, _, hv⟩, hrefers, _, h => by
    rw [texts?] at h
    obtain ⟨value, w, hvalue, rfl, htold⟩ := told_of_texts hv h
    have hread := @reads_told scan scanner _ _ _ _ htold rest
    rw [told_eq_of_refers htold hrefers hvalue] at hread
    simpa [ofNode, Node.names, shownSlot, hvalue] using hread
  | .formula f, margin, scope, ts, rest, _, _, hresults, h => by
    rw [texts?] at h
    obtain ⟨value, hvalue, rfl⟩ := Option.map_eq_some_iff.mp h
    have hopen := hresults f (by simp [Formulas.collect]) value hvalue
    rw [ofNode, List.flatten_singleton]
    exact (reads_result_iff f.name value.display margin rest).mpr hopen
  | .leaf l, margin, scope, ts, rest, hd, _, _, h => by
    rw [texts?] at h
    cases h
    rw [ofNode, ofLeaf_eq margin hd, List.flatten_singleton]
    exact reads_text _ rest
  | .markup frame children, margin, scope, ts, rest, hd, hrefers, hresults, h => by
    rw [texts?] at h
    obtain ⟨ws, hws, rfl⟩ := Option.map_eq_some_iff.mp h
    rw [Node.names, List.flatten_singleton]
    cases frame with
    | document data =>
      rw [ofNode]
      exact (reads_directBlocks children margin scope ws rest hd hrefers hresults hws).1
    | item =>
      rw [ofNode]
      exact (reads_directBlocks children margin scope ws rest hd hrefers hresults hws).1
    | paragraph =>
      rw [ofNode]
      exact reads_directInlines children margin scope ws rest hd hrefers hresults hws
    | heading level =>
      rw [ofNode]
      exact (reads_directInlines children margin scope ws rest hd hrefers hresults hws).after _
    | blockQuote =>
      rw [ofNode]
      exact (reads_directBlocks children _ scope ws rest hd hrefers hresults hws).1.after _
    | list listKind start =>
      rw [ofNode]
      exact reads_directItems listKind children [] start.toNat margin scope ws rest hd hrefers hresults hws
    | clause name src data =>
      have hbody := (reads_directBlocks children margin scope ws (regionEnd margin ws ++ rest) hd hrefers
        hresults hws).1
      rw [ofNode]
      refine reads_region name src hbody ?_
      intro hnil
      rw [eq_nil_of_texts hd (hnil ▸ hws)]
      rfl
    | emph =>
      rw [ofNode]
      exact (reads_directInlines children margin scope ws _ hd hrefers hresults hws).enclosed ['*'] ['*']
    | strong =>
      rw [ofNode]
      exact (reads_directInlines children margin scope ws _ hd hrefers hresults hws).enclosed ['*', '*'] ['*', '*']
  | .enumVariable _, _, _, _, _, hd, _, _, _ => hd.elim
  | .conditional _ _ _ _, _, _, _, _, hd, _, _, _ => hd.elim
  | .optional _ _ _ _, _, _, _, _, hd, _, _, _ => hd.elim
  | .within _ _ _, _, _, _, _, hd, _, _, _ => hd.elim
  | .list _ _ _ _, _, _, _, _, hd, _, _, _ => hd.elim
  | .join _ _ _ _, _, _, _, _, hd, _, _, _ => hd.elim
  | .clause _ _ _ _ _, _, _, _, _, hd, _, _, _ => hd.elim
  | .contract _ _, _, _, _, _, hd, _, _, _ => hd.elim

theorem reads_directInlines : ∀ (ns : List Node) (margin : List Char) (scope : Json)
    (ts : List (List Char)) (rest : List Char), Node.DirectAll ns → Node.RefersAll ns scope →
    Unclosed draft (Formulas.collectAll ns) →
    textsAll? schema settings.bullet draft compound margin ns scope = some ts →
    Reads scan scanner (ofInlines schema kind settings margin ns) rest ts.flatten
      ((Node.namesAll ns).map (shownSlot scope))
  | [], margin, scope, ts, rest, _, _, _, h => by
    rw [textsAll?] at h
    cases h
    exact reads_nothing rest
  | n :: more, margin, scope, ts, rest, ⟨hn, hmore⟩, ⟨href, hrefmore⟩, hresults, h => by
    rw [textsAll?] at h
    obtain ⟨tn, htn, h⟩ := Option.bind_eq_some_iff.mp h
    obtain ⟨tm, htm, rfl⟩ := Option.map_eq_some_iff.mp h
    obtain ⟨hresn, hresmore⟩ := unclosed_append hresults
    have hlater := reads_directInlines more margin scope tm rest hmore hrefmore hresmore htm
    have hnode := reads_direct n margin scope tn (tm.flatten ++ rest) hn href hresn htn
    rw [ofInlines, Node.namesAll, List.map_append, List.flatten_append]
    exact hnode.seq hlater

theorem reads_directBlocks : ∀ (ns : List Node) (margin : List Char) (scope : Json)
    (ts : List (List Char)) (rest : List Char), Node.DirectAll ns → Node.RefersAll ns scope →
    Unclosed draft (Formulas.collectAll ns) →
    textsAll? schema settings.bullet draft compound margin ns scope = some ts →
    Reads scan scanner (Compiling.assemble (blockSeparator margin)
        (ofEach schema kind settings margin ns)).1 rest (blockText margin ts)
        ((Node.namesAll ns).map (shownSlot scope)) ∧
      Reads scan scanner (Compiling.assemble (blockSeparator margin)
        (ofEach schema kind settings margin ns)).2 rest (laterText margin ts)
        ((Node.namesAll ns).map (shownSlot scope))
  | [], margin, scope, ts, rest, _, _, _, h => by
    rw [textsAll?] at h
    cases h
    exact ⟨reads_nothing rest, reads_nothing rest⟩
  | n :: more, margin, scope, ts, rest, ⟨hn, hmore⟩, ⟨href, hrefmore⟩, hresults, h => by
    rw [textsAll?] at h
    obtain ⟨tn, htn, h⟩ := Option.bind_eq_some_iff.mp h
    obtain ⟨tm, htm, rfl⟩ := Option.map_eq_some_iff.mp h
    obtain ⟨hresn, hresmore⟩ := unclosed_append hresults
    have hlater := (reads_directBlocks more margin scope tm rest hmore hrefmore hresmore htm).2
    obtain ⟨w, rfl⟩ := texts_direct hn htn
    have hnode := reads_direct n margin scope [w] (laterText margin tm ++ rest) hn href hresn htn
    rw [List.flatten_singleton] at hnode
    have htext : laterText margin ([w] ++ tm) = blockSeparator margin ++ (w ++ laterText margin tm) := by
      simp [laterText]
    rw [ofEach, Node.namesAll, List.map_append, htext]
    exact reads_present _ hnode hlater

theorem reads_directItems (listKind : ListKind) : ∀ (ns : List Node) (lead : List Char) (number : Nat)
    (margin : List Char) (scope : Json) (ts : List (List Char)) (rest : List Char), Node.DirectAll ns →
    Node.RefersAll ns scope → Unclosed draft (Formulas.collectAll ns) →
    textsAll? schema settings.bullet draft compound (margin ++ itemIndent listKind) ns scope = some ts →
    Reads scan scanner (ofItems schema kind settings margin listKind lead number ns) rest
      (itemText settings.bullet margin listKind lead number ts)
      ((Node.namesAll ns).map (shownSlot scope))
  | [], lead, number, margin, scope, ts, rest, _, _, _, h => by
    rw [textsAll?] at h
    cases h
    exact reads_nothing rest
  | n :: more, lead, number, margin, scope, ts, rest, ⟨hn, hmore⟩, ⟨href, hrefmore⟩, hresults, h => by
    rw [textsAll?] at h
    obtain ⟨tn, htn, h⟩ := Option.bind_eq_some_iff.mp h
    obtain ⟨tm, htm, rfl⟩ := Option.map_eq_some_iff.mp h
    obtain ⟨hresn, hresmore⟩ := unclosed_append hresults
    have hlater := reads_directItems listKind more (newline margin) (number + 1) margin scope tm rest hmore
      hrefmore hresmore htm
    have hlast := hlater.seq (reads_nothing rest)
    rw [List.append_nil, List.append_nil] at hlast
    obtain ⟨w, rfl⟩ := texts_direct hn htn
    have hnode := reads_direct n _ scope [w]
      (itemText settings.bullet margin listKind (newline margin) (number + 1) tm ++ rest) hn href hresn htn
    rw [List.flatten_singleton] at hnode
    rw [ofItems, Node.namesAll, List.map_append, List.singleton_append, itemText, List.append_assoc]
    exact (hnode.seq hlast).after _

end

end

end Grammar

/-- Texts of one record agree with each other, so each of them becomes a field. -/
theorem Captured.run_foldSlots_shown {text : List Char} {scope : Json} {names : List String}
    {fields : Fields} (k : Nat) (h : ∀ name ∈ names, Tells scope name) (hfits : Fits scope [] fields) :
    ∃ found, (foldSlots text fields (names.map (shownSlot scope))).run k = .ok (found, k) ∧
      (∀ name value, Fields.get? name fields = some value → Fields.get? name found = some value) ∧
      ∀ name ∈ names, Fields.get? name found = field? scope name := by
  induction names generalizing fields with
  | nil => exact ⟨fields, run_pure_eq_ok.mpr ⟨rfl, rfl⟩, fun _ _ h => h, by simp⟩
  | cons name names ih =>
    obtain ⟨hname, hnames⟩ := List.forall_mem_cons.mp h
    obtain ⟨hthis, hclass, value, hvalue, htext⟩ := hname
    have hsame := hfits.same hclass hvalue htext
    have hfits' : Fits scope [] (Fields.insertNew name value fields) :=
      hfits.insert hvalue (Or.inl ⟨htext, rfl⟩)
    obtain ⟨found, hrun, hkept, hfound⟩ := ih hnames hfits'
    have hfirst : Fields.get? name (Fields.insertNew name value fields) = some value := by
      have hsome : (Fields.get? name (Fields.insertNew name value fields)).isSome = true := by
        rw [Fields.get?_insertNew, if_pos rfl]
        rfl
      obtain ⟨first, hget⟩ := Option.isSome_iff_exists.mp hsome
      rw [hget, hfits'.eq_of_isText hclass hvalue htext hget]
    refine ⟨found, ?_, ?_, ?_⟩
    · rw [List.map_cons, shownSlot, hvalue, Option.getD_some]
      exact (run_foldSlots_cons hthis).mpr ⟨value, k, run_fold_value.mpr ⟨rfl, rfl⟩, hsame, hrun⟩
    · intro other v hget
      apply hkept
      rw [Fields.get?_insertNew]
      split
      · rw [hget]
        rfl
      · exact hget
    · intro other hother
      rcases List.mem_cons.mp hother with rfl | hother
      · rw [hkept _ _ hfirst, hvalue]
      · exact hfound other hother

theorem Json.field?_of_text {fields : Fields} {name : String} {value : Json} (hname : name ≠ thisName)
    (h : Fields.get? name fields = some value) (htext : value.isText = true) :
    field? (.obj fields) name = some value := by
  rw [field?, if_neg hname, Json.get?, h]
  cases value with
  | str s => rfl
  | bool b => rfl
  | _ => cases htext

namespace Template

/-- The parser takes from a drafted text the properties that the text shows as they are, whatever its
formulas result in, unless a result contains the mark that closes a formula. -/
theorem parse_results {t : Template} {table : Table} (ht : Node.DirectAll t.body) (hf : table.Faithful)
    {data : Json} {now : Instant} {s s' : DraftState} {doc : Doc}
    (hs : Ready table.schema table.settings s) (hdraft : (t.draft data now).run s = (.ok doc, s'))
    (hrefers : Node.RefersAll t.body data) (hresults : Unclosed ⟨data, now, t.kind⟩ t.formulas)
    (scan : ScanContext) {blanks : List Char} (hblanks : Text.allBlank blanks = true) (n : Nat) :
    ∃ p value, (t.parser scan table).1 = .ok p ∧
      p.parse (render table.settings.bullet [doc] ++ String.ofList blanks) n = .ok value ∧
      ∀ name ∈ Node.namesAll t.body, field? value name = field? data name := by
  obtain ⟨ts, hts, htext⟩ := texts_of_draft table.settings.bullet hs hdraft
  obtain ⟨hcompiles, htells⟩ := told_of_directAll t.body [] data ts ht hts
  obtain ⟨p, hp⟩ := parser_of_compiles scan hf hcompiles
  have hread (scanner : String → Scanner Char Captured) :
      Grammar.Reads scan scanner (t.grammar table.schema table.settings) blanks (blockText [] ts)
        ((Node.namesAll t.body).map (shownSlot data)) :=
    (Grammar.reads_directBlocks t.body [] data ts blanks ht hrefers hresults hts).1
  obtain ⟨found, hfold, _, hfound⟩ := Captured.run_foldSlots_shown n htells (Fits.ofClass t.type)
  obtain ⟨hparse, _⟩ := parse_of_reads hf hp hblanks (fun scanner _ => hread scanner) n
  have hvalue := hparse _ _ (run_fold_record.mpr ⟨found, n, hfold, rfl, rfl⟩)
  rw [← htext, String.ofList_append, ← render_singleton] at hvalue
  refine ⟨p, _, hp, hvalue, ?_⟩
  intro name hname
  obtain ⟨hthis, _, value, hfield, hisText⟩ := htells name hname
  have hget : Fields.get? name found = some value := (hfound name hname).trans hfield
  rw [hfield]
  exact field?_of_text hthis (get?_identified_of_some hget) hisText

end Template

namespace Memo

def schema : Schema :=
  ⟨[.concept "Memo" [.plain "sign" "String", .plain "subject" "String", .plain "text" "String",
      { Property.plain "writer" "Person" with relationship := true }],
    .concept "Person" []]⟩

def markup : String :=
  "\x7b\x7b% subject %\x7d\x7d\x7b\x7btext\x7d\x7d\x7b\x7b% sign %\x7d\x7d\x7b\x7bwriter\x7d\x7d"

def template : Template :=
  ⟨.clause, "Memo", [.markup .paragraph [.formula ⟨"formula_1", "subject", ["subject"]⟩,
    .variable ⟨"text", some "String", none, none, []⟩, .formula ⟨"formula_2", "sign", ["sign"]⟩,
    .variable ⟨"writer", some "Person", none, some "$identifier", []⟩]]⟩

def record (subject : String) : Json :=
  .obj [("sign", .str "y"), ("subject", .str subject), ("text", .str "\x7b\x7b% z"),
    ("writer", .str "resource:Person#1")]

def subject : String := "%\x7d \x7d\x7d\x22q %"

def context : ScanContext := ⟨0, ⟨0, 0, 0⟩⟩

theorem ofMarkup_eq : Template.ofMarkup schema .clause "Memo" markup = .ok template :=
  Template.eq_ok_of_equal (by decide +kernel)

theorem direct : Node.DirectAll template.body := by
  simp [template, Node.DirectAll, Node.Direct, plainTypes, thisName]

theorem refers : Node.RefersAll template.body (record subject) := by
  simp only [template, Node.RefersAll, Node.Refers, Option.isSome_none, and_true]
  refine ⟨trivial, by simp, trivial, fun _ => ⟨"Person", "1", rfl, by decide, ?_⟩⟩
  cbv

theorem unclosed : Unclosed ⟨record subject, ⟨0, 0, 0⟩, .clause⟩ template.formulas := by
  decide +kernel

theorem drafts : ∃ doc s', (template.draft (record subject) ⟨0, 0, 0⟩).run
    ⟨Table.empty schema .standard, 0⟩ = (.ok doc, s') :=
  exists_ok_of_isOk (by decide +kernel)

/-- A result may contain each part of the closing mark, and a text the opening one. -/
theorem parse_results_memo : Template.ofMarkup schema .clause "Memo" markup = .ok template ∧
    ∃ p doc s' value, (template.draft (record subject) ⟨0, 0, 0⟩).run
        ⟨Table.empty schema .standard, 0⟩ = (.ok doc, s') ∧
      (template.parser context (Table.empty schema .standard)).1 = .ok p ∧
      p.parse (render '-' [doc] ++ String.ofList ['\n']) 0 = .ok value ∧
      field? value "text" = some (.str "\x7b\x7b% z") ∧
      field? value "writer" = some (.str "resource:Person#1") := by
  obtain ⟨doc, s', hdraft⟩ := drafts
  have hf := Table.faithful_empty schema .standard
  obtain ⟨p, value, hp, hparse, hshown⟩ := @Template.parse_results template (Table.empty schema .standard)
    direct hf (record subject) ⟨0, 0, 0⟩ _ s' doc ⟨rfl, rfl, hf⟩ hdraft refers unclosed context ['\n']
    (by decide) 0
  have htext := hshown "text" (by decide)
  have hwriter := hshown "writer" (by decide)
  refine ⟨ofMarkup_eq, p, doc, s', value, hdraft, hp, hparse, ?_, ?_⟩
  · rw [htext]
    cbv
  · rw [hwriter]
    cbv

/-- What is read from the draft of a memo on a subject. -/
def reread (subject : String) : Option String :=
  match ((template.draft (record subject) ⟨0, 0, 0⟩).run ⟨Table.empty schema .standard, 0⟩).1,
    (template.parser context (Table.empty schema .standard)).1 with
  | .ok doc, .ok p =>
    (p.parse (render '-' [doc]) 0).toOption.bind fun value => (field? value "text").bind Json.string?
  | _, _ => none

/-- A result with the closing mark ends its formula early: its rest is taken for another text. -/
example : reread "x%\x7d\x7d\x22q" = some "q %\x7d\x7d" := by decide +kernel

end Memo

end ClauseTemplates
