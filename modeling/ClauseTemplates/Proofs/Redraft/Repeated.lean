import Mathlib
import ClauseTemplates.Proofs.Reading.Pieces
import ClauseTemplates.Proofs.Redraft.Recovery

namespace ClauseTemplates

open Json Scan Scanner Markdown Drafting

section

variable (schema : Schema) (identifier : String)

mutual

/-- Markup with properties that are texts. A variable shows a property, a block shows it if it is
there; several of them may show the same one. -/
def Node.OfTexts : Node → Prop
  | .variable v => v.name ≠ thisName ∧ v.identifiedBy = none ∧ v.type = some "String"
  | .optional name type whenSome whenNone =>
    name ≠ thisName ∧ type = some "String" ∧ thisName ∈ Node.namesAll whenSome ∧
      Node.EachReversible schema identifier (.value ["String"]) whenSome ∧
      Node.EachReversible schema identifier (.value []) whenNone
  | .leaf _ => True
  | .markup _ children => Node.OfTextsAll children
  | _ => False

def Node.OfTextsAll : List Node → Prop
  | [] => True
  | n :: rest => n.OfTexts ∧ Node.OfTextsAll rest

end

end

/-- A property that the record has is captured wherever its name stands. -/
def Slot.Everywhere (scope : Json) (names : List String) (slots : List Slot) : Prop :=
  ∀ name ∈ names, (field? scope name).isSome = true →
    (slots.map Slot.name).count name = names.count name

instance (scope : Json) (names : List String) (slots : List Slot) :
    Decidable (Slot.Everywhere scope names slots) :=
  inferInstanceAs (Decidable (∀ name ∈ names, (field? scope name).isSome = true →
    (slots.map Slot.name).count name = names.count name))

/-- What was read from the text `before` up to `behind`, and the draft of a record in its place. No
name captures more than it stands for, and what it captures the record has. Where all that the record
has was captured, the draft is what was read; where it was not, the text does not start with the
draft. -/
structure Redrafts (text : List Char) (scope : Json) (names : List String) (slots : List Slot)
    (before behind : List Char) (draft : Option (List Char)) : Prop where
  count : ∀ name, (slots.map Slot.name).count name ≤ names.count name
  fits : ∀ name captured start, .mk name captured start ∈ slots →
    ∃ v, field? scope name = some v ∧ captured.FoldsTo text v
  same : Slot.Everywhere scope names slots → ∃ w, draft = some w ∧ before = w ++ behind
  everywhere : ∀ w, draft = some w → w <+: before → Slot.Everywhere scope names slots

namespace Redrafts

variable {text : List Char} {scope : Json} {names more : List String} {slots later : List Slot}
  {before mid behind : List Char} {draft next : Option (List Char)}

theorem everywhere_append (hslots : ∀ name, (slots.map Slot.name).count name ≤ names.count name)
    (hlater : ∀ name, (later.map Slot.name).count name ≤ more.count name) :
    Slot.Everywhere scope (names ++ more) (slots ++ later) ↔
      Slot.Everywhere scope names slots ∧ Slot.Everywhere scope more later := by
  simp only [Slot.Everywhere, List.map_append, List.count_append, List.mem_append]
  constructor
  · intro h
    constructor
    · intro name hname hsome
      have := h name (Or.inl hname) hsome
      have := hslots name
      have := hlater name
      omega
    · intro name hname hsome
      have := h name (Or.inr hname) hsome
      have := hslots name
      have := hlater name
      omega
  · rintro ⟨h, h'⟩ name _ hsome
    have hcount {names : List String} {slots : List Slot} (h : Slot.Everywhere scope names slots)
        (hle : (slots.map Slot.name).count name ≤ names.count name) :
        (slots.map Slot.name).count name = names.count name := by
      by_cases hmem : name ∈ names
      · exact h name hmem hsome
      · rw [List.count_eq_zero_of_not_mem hmem] at hle ⊢
        exact Nat.le_zero.mp hle
    rw [hcount h (hslots name), hcount h' (hlater name)]

theorem append (h : Redrafts text scope names slots before mid draft)
    (h' : Redrafts text scope more later mid behind next) :
    Redrafts text scope (names ++ more) (slots ++ later) before behind
      (draft.bind fun w => next.map (w ++ ·)) := by
  have hiff := @everywhere_append scope names more slots later h.count h'.count
  refine ⟨fun name => ?_, fun name c start hmem => ?_, fun hall => ?_, fun w hw hprefix => ?_⟩
  · rw [List.map_append, List.count_append, List.count_append]
    exact Nat.add_le_add (h.count name) (h'.count name)
  · rcases List.mem_append.mp hmem with hmem | hmem
    · exact h.fits name c start hmem
    · exact h'.fits name c start hmem
  · obtain ⟨hfirst, hlater⟩ := hiff.mp hall
    obtain ⟨v, rfl, rfl⟩ := h.same hfirst
    obtain ⟨w, rfl, rfl⟩ := h'.same hlater
    exact ⟨v ++ w, rfl, (List.append_assoc v w behind).symm⟩
  · obtain ⟨v, rfl, hw⟩ := Option.bind_eq_some_iff.mp hw
    obtain ⟨u, rfl, rfl⟩ := Option.map_eq_some_iff.mp hw
    have hfirst := h.everywhere v rfl ((List.prefix_append v u).trans hprefix)
    obtain ⟨_, hv, rfl⟩ := h.same hfirst
    cases hv
    exact hiff.mpr ⟨hfirst, h'.everywhere u rfl ((List.prefix_append_right_inj v).mp hprefix)⟩

/-- Text of the template itself. -/
theorem fixed (text : List Char) (scope : Json) (w behind : List Char) :
    Redrafts text scope [] [] (w ++ behind) behind (some w) :=
  ⟨fun _ => Nat.le_refl _, by simp, fun _ => ⟨w, rfl, rfl⟩, fun _ _ _ _ h => by cases h⟩

/-- Text of the template in front. -/
theorem after (w : List Char) (h : Redrafts text scope names slots mid behind draft) :
    Redrafts text scope names slots (w ++ mid) behind (draft.map (w ++ ·)) :=
  (fixed text scope w mid).append h

/-- Text of the template behind. -/
theorem followed (w : List Char) (h : Redrafts text scope names slots before (w ++ behind) draft) :
    Redrafts text scope names slots before behind (draft.map (· ++ w)) := by
  have happend := h.append (fixed text scope w behind)
  rw [List.append_nil, List.append_nil] at happend
  have hdraft : (draft.bind fun v => (some w).map (v ++ ·)) = draft.map (· ++ w) := by
    cases draft <;> rfl
  rwa [hdraft] at happend

variable {name : String} {v : Json}

/-- A value of the record that was captured. -/
theorem captured {captured : Captured} {start : Nat} {w : List Char}
    (hv : field? scope name = some v) (hc : captured.FoldsTo text v) :
    Redrafts text scope [name] [.mk name captured start] (w ++ behind) behind (some w) := by
  refine ⟨fun _ => Nat.le_refl _, fun other c s hmem => ?_, fun _ => ⟨w, rfl, rfl⟩,
    fun _ _ _ _ _ _ => rfl⟩
  cases List.mem_singleton.mp hmem
  exact ⟨v, hv, hc⟩

/-- A property that the record lacks was not captured. -/
theorem absent {w : List Char} (hnone : field? scope name = none) :
    Redrafts text scope [name] [] (w ++ behind) behind (some w) := by
  refine ⟨fun other => Nat.zero_le _, by simp, fun _ => ⟨w, rfl, rfl⟩,
    fun _ _ _ other hmem hsome => ?_⟩
  obtain rfl := List.mem_singleton.mp hmem
  rw [hnone] at hsome
  cases hsome

/-- A property that the record has was not captured. -/
theorem missed (hv : field? scope name = some v)
    (hdraft : ∀ w, draft = some w → ¬ w <+: before) :
    Redrafts text scope [name] [] before behind draft := by
  refine ⟨fun other => Nat.zero_le _, by simp, fun hall => ?_,
    fun w hw hprefix => absurd hprefix (hdraft w hw)⟩
  have hcount := hall name (List.mem_singleton_self name) (by rw [hv]; rfl)
  simp at hcount

end Redrafts

/-- What the slots hold are fields of the record, or agree with them. -/
def Slot.Backed (text : List Char) (scope : Json) (slots : List Slot) : Prop :=
  ∀ name captured start, .mk name captured start ∈ slots → name ≠ thisName →
    ∃ first v, scope.get? name = some first ∧ captured.FoldsTo text v ∧
      (first = v ∨ first.same v = true)

theorem Slot.Backed.field {text : List Char} {scope : Json} {slots : List Slot} {name : String}
    {captured : Captured} {start : Nat} (h : Slot.Backed text scope slots)
    (hmem : .mk name captured start ∈ slots) (hname : name ≠ thisName)
    (htext : ∀ v, captured.FoldsTo text v → ∃ s, v = .str s) :
    ∃ s, field? scope name = some (.str s) ∧ captured.FoldsTo text (.str s) := by
  obtain ⟨first, v, hget, hv, hsame⟩ := h name captured start hmem hname
  obtain ⟨s, rfl⟩ := htext v hv
  have hfirst : first = .str s := by
    rcases hsame with rfl | hsame
    · rfl
    · cases first <;> simp_all [Json.same]
  subst hfirst
  refine ⟨s, ?_, hv⟩
  rw [field?, if_neg hname, hget]
  rfl

namespace Grammar

variable {schema : Schema} {identifier : String} {settings : Settings} {kind : TemplateKind}
  {scan : ScanContext} {compounds : String → Scanner Char Captured} {context : DraftContext}
  {compound : List Char → List Node → Json → Option (List (List Char))} {text : List Char}

mutual

/-- The draft of a text that stands alone is read whatever stands behind it. -/
theorem reads_value : ∀ (n : Node) {margin : List Char} {scope : Json} {ts : List (List Char)}
    (rest : List Char), n.At .inline → n.Reversible schema identifier (.value ["String"]) →
    texts? schema settings.bullet context compound margin n scope = some ts →
    (∃ shown, Reads scan compounds (ofNode schema kind settings margin n) rest ts.flatten shown) ∧
      (n.names ≠ [] → ∃ s, scope = .str s)
  | .variable v, margin, scope, ts, rest, _, ⟨hthis, hid, type, htype, hplain, hv⟩, h => by
    obtain rfl := List.mem_singleton.mp htype
    rw [texts?] at h
    obtain ⟨value, w, hvalue, rfl, htold⟩ := told_of_texts (Or.inr ⟨_, hplain, hv⟩) h
    rw [ofNode, List.flatten_singleton]
    refine ⟨⟨_, reads_told htold rest⟩, fun _ => ?_⟩
    have hscope : scope = value := by
      rw [hthis, field?, if_pos rfl] at hvalue
      exact Option.some.inj (Option.filter_eq_some_iff.mp hvalue).1
    rw [hscope]
    cases htold with
    | reference hreference _ =>
      rw [hid] at hreference
      cases hreference
    | string s _ _ => exact ⟨s, rfl⟩
    | boolean b _ hcompile =>
      rw [hv, Option.getD_some] at hcompile
      obtain ⟨hformat, _⟩ := Entry.compile_plain hplain hcompile
      rw [hformat] at hcompile
      cases hcompile
  | .leaf l, margin, scope, ts, rest, hl, _, h => by
    rw [texts?] at h
    cases h
    rw [ofNode, ofLeaf_of_level hl, List.flatten_singleton]
    exact ⟨⟨_, reads_text _ rest⟩, fun hne => absurd rfl hne⟩
  | .markup frame children, margin, scope, ts, rest, ⟨inner, hf, hl⟩, hr, h => by
    rw [texts?] at h
    obtain ⟨ws, hws, rfl⟩ := Option.map_eq_some_iff.mp h
    rw [Node.names, List.flatten_singleton]
    cases frame with
    | emph =>
      cases hf
      obtain ⟨⟨shown, hread⟩, htext⟩ := reads_valueInlines children (['*'] ++ rest) hl hr hws
      rw [ofNode]
      exact ⟨⟨shown, hread.enclosed ['*'] ['*']⟩, htext⟩
    | strong =>
      cases hf
      obtain ⟨⟨shown, hread⟩, htext⟩ := reads_valueInlines children (['*', '*'] ++ rest) hl hr hws
      rw [ofNode]
      exact ⟨⟨shown, hread.enclosed ['*', '*'] ['*', '*']⟩, htext⟩
    | _ => cases hf
  | .enumVariable _, _, _, _, _, _, hr, _ => hr.elim
  | .formula _, _, _, _, _, _, hr, _ => hr.elim
  | .conditional _ _ _ _, _, _, _, _, _, hr, _ => hr.elim
  | .optional _ _ _ _, _, _, _, _, _, hr, _ => hr.elim
  | .within _ _ _, _, _, _, _, _, hr, _ => hr.elim
  | .list _ _ _ _, _, _, _, _, _, hr, _ => hr.elim
  | .join _ _ _ _, _, _, _, _, _, hr, _ => hr.elim
  | .clause _ _ _ _ _, _, _, _, _, _, hr, _ => hr.elim
  | .contract _ _, _, _, _, _, _, hr, _ => hr.elim

theorem reads_valueInlines : ∀ (ns : List Node) {margin : List Char} {scope : Json}
    {ts : List (List Char)} (rest : List Char), Node.EachAt .inline ns →
    Node.EachReversible schema identifier (.value ["String"]) ns →
    textsAll? schema settings.bullet context compound margin ns scope = some ts →
    (∃ shown,
        Reads scan compounds (ofInlines schema kind settings margin ns) rest ts.flatten shown) ∧
      (Node.namesAll ns ≠ [] → ∃ s, scope = .str s)
  | [], margin, scope, ts, rest, _, _, h => by
    rw [textsAll?] at h
    cases h
    exact ⟨⟨_, reads_nothing rest⟩, fun hne => absurd rfl hne⟩
  | n :: more, margin, scope, ts, rest, ⟨hl, hlmore⟩, ⟨hr, hrmore⟩, h => by
    rw [textsAll?] at h
    obtain ⟨tn, htn, h⟩ := Option.bind_eq_some_iff.mp h
    obtain ⟨tm, htm, rfl⟩ := Option.map_eq_some_iff.mp h
    obtain ⟨⟨_, hlater⟩, hmore⟩ := reads_valueInlines more rest hlmore hrmore htm
    obtain ⟨⟨_, hnode⟩, hn⟩ := reads_value n (tm.flatten ++ rest) hl hr htn
    rw [ofInlines, Node.namesAll, List.flatten_append]
    refine ⟨⟨_, hnode.seq hlater⟩, fun hne => ?_⟩
    by_cases hnames : n.names = []
    · exact hmore fun hnil => hne (by rw [hnames, hnil]; rfl)
    · exact hn hnames

end

/-- Where a value stands alone, its slots hold a text. -/
theorem text_of_element (hkind : context.kind = .clause) {named : Bool} {ns : List Node}
    {margin w : List Char} {slots : List Slot} {v : Json} {type : Option String}
    (hl : Node.EachAt .inline ns) (hs : Node.EachScoped named ns)
    (hthis : thisName ∈ Node.namesAll ns)
    (hr : Node.EachReversible schema settings.clauseIdentifier (.value ["String"]) ns)
    (h : (ofInlines schema .clause settings margin ns).Spells scan compounds w slots)
    (hv : (Captured.ofElement type slots).FoldsTo text v) :
    (∃ ts, textsAll? schema settings.bullet context compound margin ns v = some ts ∧
        ts.flatten = w) ∧
      ∃ s, v = .str s := by
  have hfit : SlotsFit text (.value ["String"]) (Node.namesAll ns) slots :=
    slotsFit_ofInlines ns hl hs hr h
  rw [(hfit.element_value hthis _).1] at hv
  have hholds : Holds text (.value ["String"]) v (Node.blocksAll ns) slots :=
    .ofValue hv hfit fun name hname => (Node.namesAll_value ns hr name hname).1
  obtain ⟨ts, hts, hw⟩ := recovers_inlines hkind ns hl hs hr (Node.exclusive_value hr) h hholds
  have htext := (@reads_valueInlines schema settings.clauseIdentifier settings .clause scan compounds
    context compound ns margin v ts [] hl hr hts).2
  exact ⟨⟨ts, hts, hw⟩, htext (List.ne_nil_of_mem hthis)⟩

/-- A text is read from its own quoted form. -/
theorem spells_string {v : Variable} {w : List Char} {c : Captured} (hid : v.identifiedBy = none)
    (htype : v.type = some "String") (h : (ofValue schema v).Spells scan compounds w c) :
    ∃ s, c = .value (.str s) := by
  have hplain : "String" ∈ plainTypes := by decide
  obtain ⟨program, value, rfl, hcompile, hdraft, _⟩ := spells_plain hid htype hplain h
  obtain ⟨hformat, _⟩ := Entry.compile_plain hplain hcompile
  rw [hformat] at hcompile
  cases hcompile
  cases value with
  | str s => exact ⟨s, rfl⟩
  | _ => cases hdraft

end Grammar

theorem Node.OfTexts.not_elidable {schema : Schema} {identifier : String} {n : Node}
    (h : n.OfTexts schema identifier) : Compiling.isElidable .clause n = false := by
  cases n with
  | clause _ _ _ _ _ => exact h.elim
  | _ => rfl

/-- What stands on lines of its own is one text. -/
theorem Node.OfTexts.texts_single {schema : Schema} {identifier : String} {n : Node} {level : Level}
    {bullet : Char} {context : DraftContext}
    {compound : List Char → List Node → Json → Option (List (List Char))} {margin : List Char}
    {scope : Json} {ts : List (List Char)} (h : n.OfTexts schema identifier) (hl : n.At level)
    (hlevel : level ≠ .inline)
    (hts : texts? schema bullet context compound margin n scope = some ts) : ∃ w, ts = [w] := by
  cases n with
  | «variable» v => exact absurd hl hlevel
  | optional _ _ _ _ => exact absurd hl.1 hlevel
  | leaf l =>
    rw [texts?] at hts
    exact ⟨_, (Option.some.inj hts).symm⟩
  | markup frame children =>
    rw [texts?] at hts
    obtain ⟨inner, _, rfl⟩ := Option.map_eq_some_iff.mp hts
    exact ⟨_, rfl⟩
  | _ => exact h.elim

/-- One more node in front, behind text of the template. -/
theorem Redrafts.cons {schema : Schema} {bullet : Char} {context : DraftContext}
    {compound : List Char → List Node → Json → Option (List (List Char))} {text : List Char}
    {scope : Json} {margin before mid behind : List Char} {n : Node} {rest : List Node}
    {slots more : List Slot} {f g : List (List Char) → List Char} (front : List Char)
    (hnode : Redrafts text scope n.names slots before mid
      ((texts? schema bullet context compound margin n scope).map List.flatten))
    (hrest : Redrafts text scope (Node.namesAll rest) more mid behind
      ((textsAll? schema bullet context compound margin rest scope).map g))
    (hf : ∀ ts later, texts? schema bullet context compound margin n scope = some ts →
      f (ts ++ later) = front ++ (ts.flatten ++ g later)) :
    Redrafts text scope (Node.namesAll (n :: rest)) (slots ++ more) (front ++ before) behind
      ((textsAll? schema bullet context compound margin (n :: rest) scope).map f) := by
  have h := (hnode.append hrest).after front
  rw [Node.namesAll, textsAll?]
  cases hts : texts? schema bullet context compound margin n scope with
  | none => rwa [hts] at h
  | some ts =>
    rw [hts] at h
    cases hlater : textsAll? schema bullet context compound margin rest scope with
    | none => rwa [hlater] at h
    | some later =>
      rw [hlater] at h
      rw [Option.bind_some, Option.map_some, Option.map_some, hf ts later hts]
      exact h

namespace Slot.Backed

variable {text : List Char} {scope : Json} {slots more : List Slot}

theorem left (h : Backed text scope (slots ++ more)) : Backed text scope slots :=
  fun name c start hmem => h name c start (List.mem_append_left _ hmem)

theorem right (h : Backed text scope (slots ++ more)) : Backed text scope more :=
  fun name c start hmem => h name c start (List.mem_append_right _ hmem)

end Slot.Backed

namespace Grammar

variable {schema : Schema} {settings : Settings} {scan : ScanContext}
  {compounds : String → Scanner Char Captured} {context : DraftContext}
  {compound : List Char → List Node → Json → Option (List (List Char))} {text : List Char}

/-- A block for a property shows its value, or that the record lacks it, where it was read as what
the record says. -/
theorem redrafts_optional (hkind : context.kind = .clause) (hc : ∀ type, Advances (compounds type))
    {level : Level} {named : Bool} {name : String} {type : Option String}
    {whenSome whenNone : List Node} {margin : List Char} {c next : Cursor Char} {slots : List Slot}
    {scope : Json} (hl : (Node.optional name type whenSome whenNone).At level)
    (hs : (Node.optional name type whenSome whenNone).Scoped named)
    (hn : (Node.optional name type whenSome whenNone).OfTexts schema settings.clauseIdentifier)
    (h : read? ((ofNode schema .clause settings margin
      (.optional name type whenSome whenNone)).scanner scan compounds) c = some (slots, next))
    (hb : Slot.Backed text scope slots) :
    Redrafts text scope (Node.optional name type whenSome whenNone).names slots c.rest next.rest
      ((texts? schema settings.bullet context compound margin
        (.optional name type whenSome whenNone) scope).map List.flatten) := by
  obtain ⟨_, hsome, hnone⟩ := hl
  obtain ⟨_, hss, hsn⟩ := hs
  obtain ⟨hthis, _, hshown, hrs, hrn⟩ := hn
  rw [ofNode, read?_either, Option.or_eq_some_iff, read?_slot, read?_element, Option.map_map,
    Option.map_eq_none_iff] at h
  rw [Node.names, texts?]
  rcases h with h | ⟨hfail, h⟩
  · obtain ⟨⟨inner, last⟩, hread, heq⟩ := Option.map_eq_some_iff.mp h
    cases heq
    obtain ⟨w, hw, hspells⟩ := scanner_spells hc _ _ _ _ hread
    have htext (v : Json) := @text_of_element schema settings scan compounds context compound text
      hkind _ whenSome margin w inner v (elementType schema (type.getD "")) hsome hss hshown hrs hspells
    obtain ⟨s, hfield, hs⟩ := hb.field (List.mem_singleton_self _) hthis fun v hv => (htext v hv).2
    obtain ⟨⟨ts, hts, rfl⟩, _⟩ := htext _ hs
    rw [hfield]
    dsimp only
    rw [hts, Option.map_some, hw.1]
    exact Redrafts.captured hfield hs
  · obtain ⟨w, hw, hspells⟩ := scanner_spells hc _ _ _ _ h
    have hfit : SlotsFit text (.value []) (Node.namesAll whenNone) slots :=
      slotsFit_ofInlines whenNone hnone hsn hrn hspells
    rw [Node.namesAll_nothing hrn] at hfit
    obtain rfl := hfit.eq_nil
    cases hfield : field? scope name with
    | none =>
      obtain ⟨ts, hts, rfl⟩ := @recovers_inlines schema settings scan compounds text context compound
        hkind _ whenNone _ _ _ _ .null hnone hsn hrn (Node.exclusive_value hrn) hspells .nothing
      dsimp only
      rw [hts, Option.map_some, hw.1]
      exact Redrafts.absent hfield
    | some v =>
      -- The block would have been read as present, had the text started with the value.
      refine Redrafts.missed hfield fun w hdraft hprefix => ?_
      obtain ⟨ts, hts, rfl⟩ := Option.map_eq_some_iff.mp hdraft
      obtain ⟨rest, hrest⟩ := hprefix
      obtain ⟨shown, hreads⟩ := (@reads_valueInlines schema settings.clauseIdentifier settings
        .clause scan compounds context compound whenSome margin v ts rest hsome hrs hts).1
      obtain ⟨found, hfound, _⟩ := hreads c.offset
      rw [hrest, hfail] at hfound
      cases hfound

mutual

/-- What is read for a node, and the draft of a record that backs what was captured. -/
theorem redrafts_node (hkind : context.kind = .clause) (hc : ∀ type, Advances (compounds type))
    {level : Level} {named : Bool} : ∀ (n : Node) {margin : List Char} {c next : Cursor Char}
    {slots : List Slot} {scope : Json}, n.At level → n.Scoped named →
    n.OfTexts schema settings.clauseIdentifier →
    read? ((ofNode schema .clause settings margin n).scanner scan compounds) c = some (slots, next) →
    Slot.Backed text scope slots →
    Redrafts text scope n.names slots c.rest next.rest
      ((texts? schema settings.bullet context compound margin n scope).map List.flatten)
  | .variable v, margin, c, next, slots, scope, _, _, ⟨hthis, hid, htype⟩, h, hb => by
    rw [ofNode, read?_slot] at h
    obtain ⟨⟨captured, last⟩, hread, heq⟩ := Option.map_eq_some_iff.mp h
    cases heq
    obtain ⟨w, hw, hspells⟩ := valueScanner_spells hc _ _ _ _ hread
    have hplain : "String" ∈ plainTypes := by decide
    obtain ⟨s, rfl⟩ := spells_string hid htype hspells
    obtain ⟨_, hfield, hs⟩ := hb.field (List.mem_singleton_self _) hthis fun value hv =>
      ⟨s, Captured.value_foldsTo hv⟩
    rw [Node.names, texts?, variableTexts?_of_plain hid htype hplain hspells hfield hs, hw.1]
    simpa using Redrafts.captured hfield hs
  | .optional name type whenSome whenNone, margin, c, next, slots, scope, hl, hs, hn, h, hb =>
    redrafts_optional hkind hc hl hs hn h hb
  | .leaf l, margin, c, next, slots, scope, hl, _, _, h, _ => by
    rw [ofNode, ofLeaf_of_level hl, read?_text] at h
    obtain ⟨⟨_, last⟩, hread, heq⟩ := Option.map_eq_some_iff.mp h
    cases heq
    rw [Node.names, texts?, (read?_exactly_some hread).1]
    simpa using Redrafts.fixed text scope (leafText margin l) last.rest
  | .markup frame children, margin, c, next, slots, scope, ⟨inner, hf, hl⟩, hs, hn, h, hb => by
    rw [Node.names, texts?, Option.map_map]
    have hframe : (List.flatten ∘ fun inner => [frameText settings.bullet margin frame inner]) =
        frameText settings.bullet margin frame := by
      funext inner
      simp
    rw [hframe]
    cases frame with
    | document _ => cases hf
    | clause _ _ _ => cases hf
    | paragraph =>
      cases hf
      rw [ofNode] at h
      exact redrafts_inlines hkind hc children hl hs hn h hb
    | heading headingLevel =>
      cases hf
      rw [ofNode] at h
      obtain ⟨mid, hmid, h⟩ := read?_after_some h
      have hinner := (redrafts_inlines hkind hc children hl hs hn h hb).after
        (headingMark headingLevel.toNat)
      rw [Option.map_map] at hinner
      rw [hmid]
      exact hinner
    | blockQuote =>
      cases hf
      rw [ofNode] at h
      obtain ⟨mid, hmid, h⟩ := read?_after_some h
      have hinner := ((redrafts_blocks hkind hc children hl hs hn).1 h hb).after quoteMark
      rw [Option.map_map] at hinner
      rw [hmid]
      exact hinner
    | list listKind start =>
      cases hf
      rw [ofNode] at h
      exact redrafts_items hkind hc children hl hs hn h hb
    | item =>
      cases hf
      rw [ofNode] at h
      exact (redrafts_blocks hkind hc children hl hs hn).1 h hb
    | emph =>
      cases hf
      rw [ofNode] at h
      obtain ⟨mid, last, hmid, h, hlast⟩ := read?_enclosed h
      have hinner := redrafts_inlines hkind hc children hl hs hn h hb
      rw [hlast] at hinner
      have houter := (hinner.followed ['*']).after ['*']
      rw [Option.map_map, Option.map_map] at houter
      rw [hmid]
      exact houter
    | strong =>
      cases hf
      rw [ofNode] at h
      obtain ⟨mid, last, hmid, h, hlast⟩ := read?_enclosed h
      have hinner := redrafts_inlines hkind hc children hl hs hn h hb
      rw [hlast] at hinner
      have houter := (hinner.followed ['*', '*']).after ['*', '*']
      rw [Option.map_map, Option.map_map] at houter
      rw [hmid]
      exact houter
  | .enumVariable _, _, _, _, _, _, _, _, hn, _, _ => hn.elim
  | .formula _, _, _, _, _, _, _, _, hn, _, _ => hn.elim
  | .conditional _ _ _ _, _, _, _, _, _, _, _, hn, _, _ => hn.elim
  | .within _ _ _, _, _, _, _, _, _, _, hn, _, _ => hn.elim
  | .list _ _ _ _, _, _, _, _, _, _, _, hn, _, _ => hn.elim
  | .join _ _ _ _, _, _, _, _, _, _, _, hn, _, _ => hn.elim
  | .clause _ _ _ _ _, _, _, _, _, _, _, _, hn, _, _ => hn.elim
  | .contract _ _, _, _, _, _, _, _, _, hn, _, _ => hn.elim

theorem redrafts_inlines (hkind : context.kind = .clause) (hc : ∀ type, Advances (compounds type))
    {named : Bool} : ∀ (ns : List Node) {margin : List Char} {c next : Cursor Char}
    {slots : List Slot} {scope : Json}, Node.EachAt .inline ns → Node.EachScoped named ns →
    Node.OfTextsAll schema settings.clauseIdentifier ns →
    read? ((ofInlines schema .clause settings margin ns).scanner scan compounds) c =
      some (slots, next) →
    Slot.Backed text scope slots →
    Redrafts text scope (Node.namesAll ns) slots c.rest next.rest
      ((textsAll? schema settings.bullet context compound margin ns scope).map List.flatten)
  | [], margin, c, next, slots, scope, _, _, _, h, _ => by
    rw [ofInlines, read?_nothing] at h
    cases h
    rw [textsAll?]
    exact Redrafts.fixed text scope [] c.rest
  | n :: rest, margin, c, next, slots, scope, ⟨hl, hlrest⟩, ⟨hs, hsrest⟩, ⟨hn, hnrest⟩, h, hb => by
    rw [ofInlines] at h
    obtain ⟨before, mid, more, rfl, hfirst, hlater⟩ := read?_seq_eq_some.mp h
    exact (redrafts_node hkind hc n hl hs hn hfirst hb.left).cons []
      (redrafts_inlines hkind hc rest hlrest hsrest hnrest hlater hb.right)
      fun ts later _ => List.flatten_append

theorem redrafts_blocks (hkind : context.kind = .clause) (hc : ∀ type, Advances (compounds type))
    {named : Bool} : ∀ (ns : List Node) {margin : List Char} {c next : Cursor Char}
    {slots : List Slot} {scope : Json}, Node.EachAt .block ns → Node.EachScoped named ns →
    Node.OfTextsAll schema settings.clauseIdentifier ns →
    (read? ((Compiling.assemble (blockSeparator margin)
        (ofEach schema .clause settings margin ns)).1.scanner scan compounds) c =
        some (slots, next) →
      Slot.Backed text scope slots →
      Redrafts text scope (Node.namesAll ns) slots c.rest next.rest
        ((textsAll? schema settings.bullet context compound margin ns scope).map
          (blockText margin))) ∧
    (read? ((Compiling.assemble (blockSeparator margin)
        (ofEach schema .clause settings margin ns)).2.scanner scan compounds) c =
        some (slots, next) →
      Slot.Backed text scope slots →
      Redrafts text scope (Node.namesAll ns) slots c.rest next.rest
        ((textsAll? schema settings.bullet context compound margin ns scope).map (laterText margin)))
  | [], margin, c, next, slots, scope, _, _, _ => by
    rw [ofEach, Compiling.assemble, textsAll?, read?_nothing]
    refine ⟨fun h _ => ?_, fun h _ => ?_⟩
    · cases h
      exact Redrafts.fixed text scope [] c.rest
    · cases h
      exact Redrafts.fixed text scope [] c.rest
  | n :: rest, margin, c, next, slots, scope, ⟨hl, hlrest⟩, ⟨hs, hsrest⟩, ⟨hn, hnrest⟩ => by
    rw [ofEach, hn.not_elidable, assemble_present]
    have hblocks {c : Cursor Char} {f : List (List Char) → List Char} (front : List Char)
        (h : read? ((seq (ofNode schema .clause settings margin n) (Compiling.assemble
          (blockSeparator margin) (ofEach schema .clause settings margin rest)).2).scanner scan
          compounds) c = some (slots, next)) (hb : Slot.Backed text scope slots)
        (hf : ∀ w later, f (w :: later) = front ++ (w ++ laterText margin later)) :
        Redrafts text scope (Node.namesAll (n :: rest)) slots (front ++ c.rest) next.rest
          ((textsAll? schema settings.bullet context compound margin (n :: rest) scope).map f) := by
      obtain ⟨before, mid, more, rfl, hfirst, hlater⟩ := read?_seq_eq_some.mp h
      refine (redrafts_node hkind hc n hl hs hn hfirst hb.left).cons front
        ((redrafts_blocks hkind hc rest hlrest hsrest hnrest).2 hlater hb.right)
        fun ts later hts => ?_
      obtain ⟨w, rfl⟩ := hn.texts_single hl (by decide) hts
      rw [List.singleton_append, hf, List.flatten_singleton]
    refine ⟨fun h hb => hblocks [] h hb fun _ _ => rfl, fun h hb => ?_⟩
    obtain ⟨mid, hmid, h⟩ := read?_after_some h
    rw [hmid]
    exact hblocks (blockSeparator margin) h hb fun w later => by simp [laterText]

theorem redrafts_items (hkind : context.kind = .clause) (hc : ∀ type, Advances (compounds type))
    {named : Bool} : ∀ (ns : List Node) {margin lead : List Char} {kind : ListKind} {number : Nat}
    {c next : Cursor Char} {slots : List Slot} {scope : Json}, Node.EachAt .item ns →
    Node.EachScoped named ns → Node.OfTextsAll schema settings.clauseIdentifier ns →
    read? ((ofItems schema .clause settings margin kind lead number ns).scanner scan compounds) c =
      some (slots, next) → Slot.Backed text scope slots →
    Redrafts text scope (Node.namesAll ns) slots c.rest next.rest
      ((textsAll? schema settings.bullet context compound (margin ++ itemIndent kind) ns scope).map
        (itemText settings.bullet margin kind lead number))
  | [], margin, lead, kind, number, c, next, slots, scope, _, _, _, h, _ => by
    rw [ofItems, read?_nothing] at h
    cases h
    rw [textsAll?]
    exact Redrafts.fixed text scope [] c.rest
  | n :: rest, margin, lead, kind, number, c, next, slots, scope, ⟨hl, hlrest⟩, ⟨hs, hsrest⟩,
      ⟨hn, hnrest⟩, h, hb => by
    rw [ofItems] at h
    obtain ⟨mid, hmid, h⟩ := read?_after_some h
    obtain ⟨before, last, more, rfl, hfirst, hlater⟩ := read?_seq_eq_some.mp h
    rw [hmid]
    refine (redrafts_node hkind hc n hl hs hn hfirst hb.left).cons _
      (redrafts_items hkind hc rest hlrest hsrest hnrest (read?_last_some hlater) hb.right)
      fun ts later hts => ?_
    obtain ⟨w, rfl⟩ := hn.texts_single hl (by decide) hts
    simp [itemText]

end

end Grammar

/-- The parser of a template of texts takes each captured value into the record, and the draft of the
record is the accepted text again, up to blanks, exactly where a property that the record has was
captured by all nodes that name it. -/
theorem Template.parse_repeated {type markup : String} {t : Template} {scan : ScanContext}
    {table : Table} {p : TemplateParser}
    (ht : Template.ofMarkup table.schema .clause type markup = .ok t)
    (hn : Node.OfTextsAll table.schema table.settings.clauseIdentifier t.body) (hf : table.Faithful)
    (hp : (t.parser scan table).1 = .ok p) (text : String) (n : Nat) (value : Json)
    (hv : p.parse text n = .ok value) (now : Instant) (s : DraftState)
    (hs : Ready table.schema table.settings s) :
    ∃ slots,
      p.capture text.toList = .ok (.record t.type (some (t.identifier table.settings)) slots) ∧
      (∀ name captured start, .mk name captured start ∈ slots →
        ∃ v, field? value name = some v ∧ captured.FoldsTo text.toList v) ∧
      ((∃ doc s' blanks, (t.draft value now).run s = (.ok doc, s') ∧ Text.allBlank blanks = true ∧
          text = render table.settings.bullet [doc] ++ String.ofList blanks) ↔
        Slot.Everywhere value (Node.namesAll t.body) slots) := by
  obtain ⟨hkind, _, hl⟩ := Template.ofMarkup_at ht
  obtain ⟨slots, next, fields, k, hcapture, hread, hblanks, hfields, rfl⟩ :=
    Template.read_of_parse hf hp hv
  rw [Template.grammar, hkind] at hread
  set value := Json.obj (Captured.identified (some (t.identifier table.settings)) fields k).1
  have hbacked : Slot.Backed text.toList value slots := by
    intro name captured start hmem hname
    obtain ⟨first, v, j, l, hget, hv, hsame⟩ := Captured.foldSlots_slot hfields hmem hname
    exact ⟨first, v, Captured.get?_identified_of_some hget, ⟨j, l, hv⟩, hsame⟩
  let draft : DraftContext := ⟨value, now, t.kind⟩
  have hredrafts : Redrafts text.toList value (Node.namesAll t.body) slots text.toList next.rest
      (t.text? table.schema table.settings.bullet value now) := by
    rw [Template.text?, if_pos (show value.isObject = true from rfl)]
    exact (@Grammar.redrafts_blocks table.schema table.settings scan _ draft _ text.toList hkind
      (Grammar.advances_compoundScanner p.compounds _) _ t.body [] _ next slots value hl
      (Template.ofMarkup_scoped ht) hn).1 hread hbacked
  have hagrees := Template.agrees_draft t table.schema table.settings table.settings.bullet value now
  refine ⟨slots, hcapture, hredrafts.fits, ?_, fun hall => ?_⟩
  · rintro ⟨doc, s', blanks, hrun, _, htext⟩
    obtain ⟨hdraft, _⟩ := hagrees.of_yields hs hrun
    refine hredrafts.everywhere _ hdraft ⟨blanks, ?_⟩
    rw [htext, render_singleton, String.toList_append, String.toList_ofList, String.toList_ofList]
  · obtain ⟨w, hw, htext⟩ := hredrafts.same hall
    rw [hw] at hagrees
    obtain ⟨doc, s', hrun, rfl, _⟩ := hagrees.yields hs
    refine ⟨doc, s', next.rest, hrun, hblanks, String.toList_inj.mp ?_⟩
    rw [render_singleton, String.toList_append, String.toList_ofList, String.toList_ofList]
    exact htext

namespace Remark

def schema : Schema :=
  ⟨[.concept "Clause" [{ Property.plain "remark" "String" with optional := true }]]⟩

def markup : String :=
  "\x7b\x7b#optional remark\x7d\x7dA \x7b\x7bthis\x7d\x7d" ++
  "\x7b\x7belse\x7d\x7dnone\x7b\x7b/optional\x7d\x7d " ++
  "\x7b\x7b#optional remark\x7d\x7dB \x7b\x7bthis\x7d\x7d" ++
  "\x7b\x7belse\x7d\x7dnone\x7b\x7b/optional\x7d\x7d"

def block (lead : String) : Node :=
  .optional "remark" (some "String")
    [.text lead, .variable ⟨thisName, some "String", none, none, []⟩] [.text "none"]

def template : Template :=
  ⟨.clause, "Clause", [.markup .paragraph [block "A ", .text " ", block "B "]]⟩

def context : ScanContext := ⟨0, ⟨0, 0, 0⟩⟩

def parser : TemplateParser :=
  ⟨context, [], .record "Clause" (some "clauseId") (template.grammar schema .standard)⟩

def text : String := "A \x22x\x22 none"

def record : Json :=
  .obj [("$class", .str "Clause"), ("clauseId", .str (Identifier.numbered 0)), ("remark", .str "x")]

def slots : List Slot :=
  [.mk "remark" (.unwrapped [.mk thisName (.value (.str "x")) 2]) 0]

set_option maxRecDepth 100000 in
/-- One block shows a remark that another one denies: the draft of the record is another text. -/
theorem parse_repeated_denied : parser.parse text 0 = .ok record ∧
    ¬ Slot.Everywhere record (Node.namesAll template.body) slots ∧
    ¬ ∃ doc s' blanks, (template.draft record ⟨0, 0, 0⟩).run ⟨Table.empty schema .standard, 1⟩ =
      (.ok doc, s') ∧ Text.allBlank blanks = true ∧
      text = render '-' [doc] ++ String.ofList blanks := by
  have hparse : parser.parse text 0 = .ok record := by cbv
  have hcapture : parser.capture text.toList = .ok (.record "Clause" (some "clauseId") slots) := by
    cbv
  have hmarkup : Template.ofMarkup schema .clause "Clause" markup = .ok template :=
    Template.eq_ok_of_equal (by decide +kernel)
  have htexts : Node.OfTextsAll schema "clauseId" template.body := by
    simp [template, block, Node.text, Node.OfTextsAll, Node.OfTexts, Node.EachReversible,
      Node.Reversible, Variable.IsThis, plainTypes, thisName, Node.namesAll, Node.names]
  have hparser : (template.parser context (Table.empty schema .standard)).1 = .ok parser := by cbv
  have hapart : ¬ Slot.Everywhere record (Node.namesAll template.body) slots := by decide +kernel
  obtain ⟨found, hfound, _, hiff⟩ := @Template.parse_repeated _ _ _ _ (Table.empty schema .standard)
    _ hmarkup htexts (Table.faithful_empty schema .standard) hparser text 0 record hparse ⟨0, 0, 0⟩
    ⟨Table.empty schema .standard, 1⟩ ⟨rfl, rfl, Table.faithful_empty schema .standard⟩
  cases hcapture.symm.trans hfound
  exact ⟨hparse, hapart, fun hdraft => hapart (hiff.mp hdraft)⟩

end Remark

end ClauseTemplates
