import ClauseTemplates.Proofs.Grammar.Folding
import ClauseTemplates.Proofs.Grammar.Spelling
import ClauseTemplates.Proofs.Grammar.Compiled
import ClauseTemplates.Proofs.Redraft.Reversible
import ClauseTemplates.Proofs.Template.Level

namespace ClauseTemplates

open Scan Scanner

theorem ScalarProgram.draft_of_reads_string {context : ScanContext} {w : List Char} {value : Json}
    (h : (ScalarProgram.string.scanner context).Reads w value) :
    ∃ s, value = .str s ∧ w = Text.quoted s.toList := by
  obtain ⟨c, next, hr, hw⟩ := h
  rw [scanner, read?_bind] at hr
  obtain ⟨x, hx, hr⟩ := Option.bind_eq_some_iff.mp hr
  cases hr
  have hq := read?_quotedScanner_passes hx
  refine ⟨String.ofList x.1, rfl, ?_⟩
  rw [String.toList_ofList]
  exact List.append_cancel_right (hw.1.symm.trans hq.1)

theorem ScalarProgram.draft_of_reads_boolean {context : ScanContext} {w : List Char} {value : Json}
    (h : (ScalarProgram.boolean.scanner context).Reads w value) :
    ∃ b, value = .bool b ∧ w = (if b then "true".toList else "false".toList) := by
  obtain ⟨c, next, hr, hw⟩ := h
  rw [scanner, read?_orElse, Option.or_eq_some_iff, read?_bind, read?_bind] at hr
  rcases hr with hr | ⟨_, hr⟩
  · obtain ⟨x, hx, hr⟩ := Option.bind_eq_some_iff.mp hr
    cases hr
    exact ⟨true, rfl, List.append_cancel_right (hw.1.symm.trans (read?_exactly_some hx).1)⟩
  · obtain ⟨x, hx, hr⟩ := Option.bind_eq_some_iff.mp hr
    cases hr
    exact ⟨false, rfl, List.append_cancel_right (hw.1.symm.trans (read?_exactly_some hx).1)⟩

/-- Plain types are written by their own programs, and only without a format. -/
theorem Entry.compile_plain {schema : Schema} {type : String} {format : Option String} {e : Entry}
    (hplain : type ∈ plainTypes) (h : compile schema ⟨type, format⟩ = .ok e) :
    format = none ∧ (e = .scalar .string ∨ e = .scalar .boolean) := by
  simp only [plainTypes, List.mem_cons, List.not_mem_nil, or_false] at hplain
  rcases hplain with rfl | rfl
  · cases format with
    | some _ => cases h
    | none =>
      cases h
      exact ⟨rfl, Or.inl rfl⟩
  · cases format with
    | some _ => cases h
    | none =>
      cases h
      exact ⟨rfl, Or.inr rfl⟩

/-- The text that a value of a plain type is read from is the draft of the value. -/
theorem Grammar.spells_plain {schema : Schema} {context : ScanContext}
    {compound : String → Scanner Char Captured} {v : Variable} {type : String} {w : List Char}
    {c : Captured} (hid : v.identifiedBy = none) (htype : v.type = some type)
    (hplain : type ∈ plainTypes) (h : (ofValue schema v).Spells context compound w c) :
    ∃ program value, c = .value value ∧ Entry.compile schema ⟨type, v.format⟩ = .ok (.scalar program) ∧
      program.draft value = .ok w ∧ value.Exact ∧ value.isNull = false := by
  unfold ofValue at h
  rw [hid, htype] at h
  dsimp only [Option.isSome_none, Option.getD_some] at h
  rw [if_neg Bool.false_ne_true] at h
  cases hc : Entry.compile schema ⟨type, v.format⟩ with
  | error _ =>
    rw [hc] at h
    obtain ⟨_, hmem, _⟩ := h
    cases hmem
  | ok e =>
    rw [hc] at h
    rcases (Entry.compile_plain hplain hc).2 with rfl | rfl
    · obtain ⟨value, rfl, hr⟩ := h
      obtain ⟨s, rfl, rfl⟩ := ScalarProgram.draft_of_reads_string hr
      exact ⟨.string, _, rfl, rfl, rfl, trivial, rfl⟩
    · obtain ⟨value, rfl, hr⟩ := h
      obtain ⟨b, rfl, rfl⟩ := ScalarProgram.draft_of_reads_boolean hr
      exact ⟨.boolean, _, rfl, rfl, by cases b <;> rfl, trivial, rfl⟩

/-- The text that a reference is read from is its identifier. -/
theorem Grammar.spells_reference {schema : Schema} {context : ScanContext}
    {compound : String → Scanner Char Captured} {v : Variable} {type : String} {w : List Char}
    {c : Captured} (hid : v.identifiedBy.isSome) (htype : v.type = some type)
    (h : (ofValue schema v).Spells context compound w c) :
    ∃ id, c = .value (.str (resourceUri type (String.ofList id))) ∧ w = Text.quoted id := by
  unfold ofValue at h
  rw [htype] at h
  dsimp only [Option.getD_some] at h
  rw [if_pos hid] at h
  exact h

theorem Captured.record_not_null {text : List Char} {type : String} {identifier : Option String}
    {slots : List Slot} {v : Json} (h : FoldsTo text (.record type identifier slots) v) :
    v.isNull = false := by
  obtain ⟨n, m, h⟩ := h
  obtain ⟨fields, k, _, rfl, _⟩ := run_fold_record.mp h
  rfl

theorem Captured.array_not_null {text : List Char} {items : List Captured} {v : Json}
    (h : FoldsTo text (.array items) v) : v.isNull = false := by
  obtain ⟨n, m, h⟩ := h
  obtain ⟨vs, _, rfl⟩ := run_fold_array.mp h
  rfl

theorem Captured.value_foldsTo {text : List Char} {v w : Json} (h : FoldsTo text (.value v) w) :
    w = v := by
  obtain ⟨n, m, h⟩ := h
  exact (run_fold_value.mp h).1

theorem Captured.exactItems_of_forall₂ {R : List Char → Captured → Prop} {texts : List (List Char)}
    {parts : List Captured} (h : List.Forall₂ R texts parts) (hR : ∀ w c, R w c → c.Exact) :
    ExactItems parts := by
  induction h with
  | nil => exact trivial
  | cons h _ ih => exact ⟨hR _ _ h, ih⟩

/-- What the slots of some nodes hold: values that are not null, with no doubles, by names that the
nodes look up; a scope of a single value shows all of these names. -/
structure SlotsFit (text : List Char) (held : Held) (names : List String) (slots : List Slot) :
    Prop where
  exact : Captured.ExactSlots slots
  named : ∀ name c start, .mk name c start ∈ slots → name ∈ names
  solid : ∀ name c start v, .mk name c start ∈ slots → c.FoldsTo text v → v.isNull = false
  shown : ∀ types, held = .value types → ∀ name ∈ names, ∃ c start, .mk name c start ∈ slots

namespace SlotsFit

variable {text : List Char} {held : Held} {names more : List String} {slots others : List Slot}

theorem nil : SlotsFit text held [] [] :=
  ⟨trivial, by simp, by simp, by simp⟩

theorem append (h : SlotsFit text held names slots) (h' : SlotsFit text held more others) :
    SlotsFit text held (names ++ more) (slots ++ others) := by
  refine ⟨Captured.exactSlots_append.mpr ⟨h.exact, h'.exact⟩, ?_, ?_, ?_⟩
  · intro name c start hmem
    rcases List.mem_append.mp hmem with hmem | hmem
    · exact List.mem_append_left _ (h.named name c start hmem)
    · exact List.mem_append_right _ (h'.named name c start hmem)
  · intro name c start v hmem
    rcases List.mem_append.mp hmem with hmem | hmem
    · exact h.solid name c start v hmem
    · exact h'.solid name c start v hmem
  · intro types htypes name hname
    rcases List.mem_append.mp hname with hname | hname
    · obtain ⟨c, start, hmem⟩ := h.shown types htypes name hname
      exact ⟨c, start, List.mem_append_left _ hmem⟩
    · obtain ⟨c, start, hmem⟩ := h'.shown types htypes name hname
      exact ⟨c, start, List.mem_append_right _ hmem⟩

theorem single {name : String} {c : Captured} {start : Nat} (hc : c.Exact)
    (hv : ∀ v, c.FoldsTo text v → v.isNull = false) :
    SlotsFit text held [name] [.mk name c start] := by
  refine ⟨⟨hc, trivial⟩, ?_, ?_, ?_⟩
  · intro _ _ _ hmem
    cases List.mem_singleton.mp hmem
    exact List.mem_singleton_self _
  · intro _ _ _ v hmem
    cases List.mem_singleton.mp hmem
    exact hv v
  · intro _ _ other hother
    cases List.mem_singleton.mp hother
    exact ⟨c, start, List.mem_singleton_self _⟩

theorem array {name : String} {parts : List Captured} {start : Nat}
    (h : Captured.ExactItems parts) : SlotsFit text held [name] [.mk name (.array parts) start] :=
  .single h fun _ => Captured.array_not_null

theorem widen {filled : List String} (h : SlotsFit text (.record filled) names slots)
    (hsub : names ⊆ more) : SlotsFit text (.record filled) more slots :=
  ⟨h.exact, fun name c start hmem => hsub (h.named name c start hmem), h.solid, by
    rintro _ ⟨⟩⟩

theorem eq_nil (h : SlotsFit text held [] slots) : slots = [] := by
  cases slots with
  | nil => rfl
  | cons slot rest =>
    obtain ⟨name, c, start⟩ := slot
    cases h.named name c start List.mem_cons_self

theorem any_isThis {types : List String} (h : SlotsFit text (.value types) names slots)
    (hthis : thisName ∈ names) : slots.any Slot.isThis = true := by
  obtain ⟨c, start, hmem⟩ := h.shown types rfl thisName hthis
  exact List.any_eq_true.mpr ⟨_, hmem, by simp [Slot.isThis, Slot.name]⟩

theorem not_any_isThis (h : SlotsFit text held names slots) (hthis : thisName ∉ names) :
    slots.any Slot.isThis = false := by
  rw [List.any_eq_false]
  rintro ⟨name, c, start⟩ hmem hname
  simp only [Slot.isThis, Slot.name, beq_iff_eq] at hname
  subst hname
  exact hthis (h.named _ c start hmem)

/-- A text among slots is the current value itself. -/
theorem element_value {types : List String} (h : SlotsFit text (.value types) names slots)
    (hthis : thisName ∈ names) (type : Option String) :
    Captured.ofElement type slots = .unwrapped slots ∧ (Captured.unwrapped slots).Exact ∧
      ∀ v, (Captured.unwrapped slots).FoldsTo text v → v.isNull = false := by
  refine ⟨?_, h.exact, ?_⟩
  · unfold Captured.ofElement
    rw [if_pos (h.any_isThis hthis)]
  rintro v ⟨n, m, hv⟩
  obtain ⟨found, hf, rfl⟩ := Captured.run_fold_unwrapped.mp hv
  obtain ⟨c, start, hmem⟩ := h.shown types rfl thisName hthis
  obtain ⟨w, rfl, hw⟩ := Captured.foldThis_foldsTo hf h.exact hmem
  exact h.solid _ c start w hmem hw

theorem element_record (h : SlotsFit text held names slots) (hthis : thisName ∉ names)
    (type : String) : Captured.ofElement (some type) slots = .record type none slots := by
  unfold Captured.ofElement
  rw [h.not_any_isThis hthis]
  rfl

end SlotsFit

namespace Node

variable {schema : Schema} {identifier : String}

mutual

theorem this_not_named : ∀ (n : Node) {filled : List String},
    n.Reversible schema identifier (.record filled) → thisName ∉ n.names
  | .variable v, _, h => by
    rw [names, List.mem_singleton]
    exact Ne.symm h.1
  | .conditional name _ whenTrue _, _, ⟨hname, _, ht, _⟩ => by
    rw [names, List.mem_cons, not_or]
    exact ⟨Ne.symm hname, this_not_namedAll whenTrue ht⟩
  | .optional _ _ _ _, _, h => by
    rw [names, List.mem_singleton]
    exact Ne.symm h.1
  | .within _ _ _, _, h => by
    rw [names, List.mem_singleton]
    exact Ne.symm h.1
  | .list _ _ _ _, _, h => by
    rw [names, List.mem_singleton]
    exact Ne.symm h.1
  | .join _ _ _ _, _, h => by
    rw [names, List.mem_singleton]
    exact Ne.symm h.1
  | .clause _ _ _ _ _, _, h => by
    rw [names, List.mem_singleton]
    exact Ne.symm h.1
  | .leaf _, _, _ => by simp [names]
  | .markup _ children, _, h => by
    rw [names]
    exact this_not_namedAll children h
  | .enumVariable _, _, h => h.elim
  | .formula _, _, h => h.elim
  | .contract _ _, _, h => h.elim

theorem this_not_namedAll : ∀ (ns : List Node) {filled : List String},
    EachReversible schema identifier (.record filled) ns → thisName ∉ namesAll ns
  | [], _, _ => by simp [namesAll]
  | n :: rest, _, ⟨hn, hrest⟩ => by
    rw [namesAll, List.mem_append, not_or]
    exact ⟨this_not_named n hn, this_not_namedAll rest hrest⟩

end

mutual

/-- A scope of a single value shows only this value, and nothing where no type is given. -/
theorem names_value : ∀ (n : Node) {types : List String},
    n.Reversible schema identifier (.value types) → ∀ name ∈ n.names, name = thisName ∧ types ≠ []
  | .variable v, _, ⟨hthis, _, _, hmem, _⟩, name, hname => by
    rw [names, List.mem_singleton] at hname
    exact ⟨hname.trans hthis, List.ne_nil_of_mem hmem⟩
  | .leaf _, _, _, _, hname => by simp [names] at hname
  | .markup _ children, _, h, name, hname => by
    rw [names] at hname
    exact namesAll_value children h name hname
  | .conditional _ _ _ _, _, h, _, _ => h.elim
  | .optional _ _ _ _, _, h, _, _ => h.elim
  | .within _ _ _, _, h, _, _ => h.elim
  | .list _ _ _ _, _, h, _, _ => h.elim
  | .join _ _ _ _, _, h, _, _ => h.elim
  | .clause _ _ _ _ _, _, h, _, _ => h.elim
  | .enumVariable _, _, h, _, _ => h.elim
  | .formula _, _, h, _, _ => h.elim
  | .contract _ _, _, h, _, _ => h.elim

theorem namesAll_value : ∀ (ns : List Node) {types : List String},
    EachReversible schema identifier (.value types) ns →
    ∀ name ∈ namesAll ns, name = thisName ∧ types ≠ []
  | [], _, _, _, hname => by simp [namesAll] at hname
  | n :: rest, _, ⟨hn, hrest⟩, name, hname => by
    rw [namesAll] at hname
    rcases List.mem_append.mp hname with hname | hname
    · exact names_value n hn name hname
    · exact namesAll_value rest hrest name hname

end

mutual

theorem blocks_value : ∀ (n : Node) {types : List String},
    n.Reversible schema identifier (.value types) → n.blocks = []
  | .variable _, _, _ => by rw [blocks]
  | .leaf _, _, _ => by rw [blocks]
  | .markup _ children, _, h => by
    rw [blocks]
    exact blocksAll_value children h
  | .conditional _ _ _ _, _, h => h.elim
  | .optional _ _ _ _, _, h => h.elim
  | .within _ _ _, _, h => h.elim
  | .list _ _ _ _, _, h => h.elim
  | .join _ _ _ _, _, h => h.elim
  | .clause _ _ _ _ _, _, h => h.elim
  | .enumVariable _, _, h => h.elim
  | .formula _, _, h => h.elim
  | .contract _ _, _, h => h.elim

theorem blocksAll_value : ∀ (ns : List Node) {types : List String},
    EachReversible schema identifier (.value types) ns → blocksAll ns = []
  | [], _, _ => by rw [blocksAll]
  | n :: rest, _, ⟨hn, hrest⟩ => by
    rw [blocksAll, blocks_value n hn, blocksAll_value rest hrest]
    rfl

end

theorem exclusive_value {ns : List Node} {types : List String}
    (h : EachReversible schema identifier (.value types) ns) :
    Exclusive (blocksAll ns) (namesAll ns) := by
  rw [blocksAll_value ns h]
  rintro _ ⟨⟩

theorem namesAll_nothing {ns : List Node} (h : EachReversible schema identifier (.value []) ns) :
    namesAll ns = [] :=
  List.eq_nil_iff_forall_not_mem.mpr fun name hname => (namesAll_value ns h name hname).2 rfl

end Node

namespace Grammar

variable {schema : Schema} {settings : Settings} {context : ScanContext}
  {compound : String → Scanner Char Captured} {text : List Char}

mutual

/-- The slots of a text are those of the nodes that it is spelled by. -/
theorem slotsFit_ofNode {level : Level} {named : Bool} : ∀ (n : Node) {held : Held} {margin w : List Char}
    {slots : List Slot}, n.At level → n.Scoped named → n.Reversible schema settings.clauseIdentifier held →
    (ofNode schema .clause settings margin n).Spells context compound w slots →
    SlotsFit text held n.names slots
  | .variable v, held, margin, w, slots, _, _, hn, h => by
    rw [ofNode] at h
    obtain ⟨c, start, rfl, h⟩ := h
    rw [Node.names]
    have hplain {type : String} (hid : v.identifiedBy = none) (hmem : type ∈ plainTypes)
        (htype : v.type = some type) : SlotsFit text held [v.name] [.mk v.name c start] := by
      obtain ⟨_, value, rfl, _, _, hexact, hnull⟩ := spells_plain hid htype hmem h
      refine .single hexact fun v hv => ?_
      rw [Captured.value_foldsTo hv]
      exact hnull
    cases held with
    | record filled =>
      rcases hn.2.2 with ⟨type, htype, hid, _⟩ | ⟨hid, type, hmem, htype⟩
      · obtain ⟨id, rfl, _⟩ := spells_reference hid htype h
        refine .single trivial fun v hv => ?_
        rw [Captured.value_foldsTo hv]
        rfl
      · exact hplain hid hmem htype
    | value types =>
      obtain ⟨_, hid, type, _, hmem, htype⟩ := hn
      exact hplain hid hmem htype
  | .conditional name condition whenTrue whenFalse, held, margin, w, slots, ⟨_, ht, hf⟩, ⟨_, hst, hsf⟩,
      hn, h => by
    cases held with
    | value _ => exact hn.elim
    | record filled =>
      obtain ⟨_, rfl, hrt, hrf⟩ := hn
      rw [ofNode, if_neg (by simp)] at h
      rw [Node.names]
      have hflag {shown : List Slot} {start : Nat} (b : Bool)
          (hs : SlotsFit text (.record filled) (Node.namesAll whenTrue) shown) :
          SlotsFit text (.record filled) (name :: Node.namesAll whenTrue)
            (shown ++ [.mk name (.value (.bool b)) start]) := by
        have hlast : SlotsFit text (.record filled) [name] [.mk name (.value (.bool b)) start] := by
          refine .single trivial fun v hv => ?_
          rw [Captured.value_foldsTo hv]
          rfl
        exact (hs.append hlast).widen (by simp)
      rcases h with ⟨shown, start, rfl, h⟩ | ⟨shown, start, rfl, h⟩
      · exact hflag true (slotsFit_ofInlines whenTrue ht hst hrt h)
      · have hs := slotsFit_ofInlines whenFalse hf hsf (hrf.nothing hsf) h
        rw [Node.namesAll_nothing (hrf.nothing hsf)] at hs
        rw [hs.eq_nil]
        exact hflag false (SlotsFit.nil.widen (List.nil_subset _))
  | .optional name type whenSome whenNone, held, margin, w, slots, ⟨_, hs, hnone⟩, ⟨_, hss, hsn⟩, hn,
      h => by
    cases held with
    | value _ => exact hn.elim
    | record filled =>
      obtain ⟨_, _, hrn, hsome⟩ := hn
      rw [ofNode] at h
      rw [Node.names]
      rcases h with ⟨c, start, rfl, inner, rfl, h⟩ | h
      · rcases hsome with ⟨rfl, hthis, hrs⟩ | ⟨⟨record, rfl, hrec⟩, _, hrs⟩
        · obtain ⟨heq, hexact, hsolid⟩ :=
            (slotsFit_ofInlines whenSome hs hss hrs h).element_value hthis
              (elementType schema "String")
          rw [Option.getD_some, heq]
          exact .single hexact hsolid
        · have hfit := slotsFit_ofInlines whenSome hs hss hrs h
          rw [Option.getD_some, elementType, if_pos hrec,
            hfit.element_record (Node.this_not_namedAll whenSome hrs)]
          exact .single hfit.exact fun v => Captured.record_not_null
      · have hfit := slotsFit_ofInlines whenNone hnone hsn (hrn.nothing hsn) h
        rw [Node.namesAll_nothing (hrn.nothing hsn)] at hfit
        rw [hfit.eq_nil]
        exact SlotsFit.nil.widen (List.nil_subset _)
  | .within name type children, held, margin, w, slots, ⟨_, hl⟩, ⟨_, hs⟩, hn, h => by
    cases held with
    | value _ => exact hn.elim
    | record filled =>
      obtain ⟨_, _, hrc⟩ := hn
      rw [ofNode] at h
      rw [Node.names]
      obtain ⟨c, start, rfl, inner, rfl, h⟩ := h
      exact .single (slotsFit_ofInlines children hl hs hrc h).exact
        fun v => Captured.record_not_null
  | .list name kind type children, held, margin, w, slots, ⟨_, hl⟩, ⟨_, hs⟩, hn, h => by
    cases held with
    | value _ => exact hn.elim
    | record filled =>
      obtain ⟨_, rfl, rfl, hthis, hrc⟩ := hn
      rw [ofNode] at h
      rw [Node.names]
      obtain ⟨c, start, rfl, h⟩ := h
      obtain ⟨_, _, hne⟩ | ⟨first, texts, parts, rfl, _, hall⟩ := h
      · cases hne
      refine .array (Captured.exactItems_of_forall₂ hall fun w c h => ?_)
      obtain ⟨inner, rfl, _, v, _, s, rfl, rfl, ⟨rfl, rfl⟩, h⟩ := h
      obtain ⟨heq, hexact, _⟩ := (slotsFit_ofEach children hl hs hrc (Or.inl h)).element_value hthis
        (elementType schema "String")
      rw [Option.getD_some, List.nil_append, heq]
      exact hexact
  | .join name type separator children, held, margin, w, slots, ⟨_, hl⟩, ⟨_, hs⟩, hn, h => by
    cases held with
    | value _ => exact hn.elim
    | record filled =>
      obtain ⟨_, rfl, hthis, hrc⟩ := hn
      rw [ofNode] at h
      rw [Node.names]
      obtain ⟨c, start, rfl, h⟩ := h
      obtain ⟨rfl, _, _⟩ | ⟨first, texts, parts, rfl, _, hall⟩ := h
      · exact .array trivial
      refine .array (Captured.exactItems_of_forall₂ hall fun w c h => ?_)
      obtain ⟨inner, rfl, h⟩ := h
      obtain ⟨heq, hexact, _⟩ := (slotsFit_ofInlines children hl hs hrc h).element_value hthis
        (elementType schema "String")
      rw [Option.getD_some, heq]
      exact hexact
  | .clause name type src condition children, held, margin, w, slots, ⟨_, _, hl⟩, ⟨_, hs⟩, hn, h => by
    cases held with
    | value _ => exact hn.elim
    | record filled =>
      obtain ⟨_, rfl, _, _, hrc⟩ := hn
      rw [ofNode, if_neg (by simp)] at h
      rw [Node.names]
      obtain ⟨c, start, rfl, inner, rfl, h⟩ := h
      exact .single (slotsFit_ofEach children hl hs hrc (Or.inl h)).exact
        fun v => Captured.record_not_null
  | .leaf l, held, margin, w, slots, hl, _, hn, h => by
    have hnil : slots = [] := by
      rw [ofNode] at h
      cases l with
      | formula _ _ => exact h
      | _ => exact h.2
    rw [hnil, Node.names]
    exact .nil
  | .markup frame children, held, margin, w, slots, ⟨inner, hf, hl⟩, hs, hn, h => by
    rw [Node.names]
    cases frame with
    | document _ => cases hf
    | clause _ _ _ => cases hf
    | paragraph =>
      rw [ofNode] at h
      exact slotsFit_ofInlines children hl hs hn.children h
    | heading _ =>
      rw [ofNode] at h
      obtain ⟨_, _, _, _, rfl, rfl, ⟨rfl, rfl⟩, h⟩ := h
      exact slotsFit_ofInlines children hl hs hn.children h
    | blockQuote =>
      rw [ofNode] at h
      obtain ⟨_, _, _, _, rfl, rfl, ⟨rfl, rfl⟩, h⟩ := h
      exact slotsFit_ofEach children hl hs hn.children (Or.inl h)
    | list kind start =>
      rw [ofNode] at h
      exact slotsFit_ofItems children hl hs hn.children h
    | item =>
      rw [ofNode] at h
      exact slotsFit_ofEach children hl hs hn.children (Or.inl h)
    | emph =>
      rw [ofNode] at h
      obtain ⟨v, _, h⟩ := spells_enclosed h
      exact slotsFit_ofInlines children hl hs hn.children h
    | strong =>
      rw [ofNode] at h
      obtain ⟨v, _, h⟩ := spells_enclosed h
      exact slotsFit_ofInlines children hl hs hn.children h
  | .enumVariable _, held, _, _, _, _, _, hn, _ => by cases held <;> exact hn.elim
  | .formula _, held, _, _, _, _, _, hn, _ => by cases held <;> exact hn.elim
  | .contract _ _, held, _, _, _, hl, _, _, _ => hl.elim

theorem slotsFit_ofEach {level : Level} {named : Bool} : ∀ (ns : List Node) {held : Held}
    {margin separator w : List Char} {slots : List Slot}, Node.EachAt level ns → Node.EachScoped named ns →
    Node.EachReversible schema settings.clauseIdentifier held ns →
    (Compiling.assemble separator (ofEach schema .clause settings margin ns)).1.Spells
        context compound w slots ∨
      (Compiling.assemble separator (ofEach schema .clause settings margin ns)).2.Spells
        context compound w slots →
    SlotsFit text held (Node.namesAll ns) slots
  | [], held, margin, separator, w, slots, _, _, _, h => by
    rw [ofEach, Compiling.assemble] at h
    obtain ⟨_, rfl⟩ := h.elim id id
    exact .nil
  | n :: rest, held, margin, separator, w, slots, ⟨hl, hrest⟩, ⟨hs, hsrest⟩, ⟨hn, hnrest⟩, h => by
    rw [ofEach, spells_assemble_first, spells_assemble_later] at h
    rcases h with (⟨_, _, _, _, _, rfl, h₁, h₂⟩ | ⟨he, _⟩) | (⟨_, _, _, _, _, rfl, h₁, h₂⟩ | ⟨he, _⟩)
    · exact (slotsFit_ofNode n hl hs hn h₁).append (slotsFit_ofEach rest hrest hsrest hnrest (Or.inr h₂))
    · exact absurd he hn.not_elidable
    · exact (slotsFit_ofNode n hl hs hn h₁).append (slotsFit_ofEach rest hrest hsrest hnrest (Or.inr h₂))
    · exact absurd he hn.not_elidable

theorem slotsFit_ofInlines {level : Level} {named : Bool} : ∀ (ns : List Node) {held : Held} {margin w : List Char}
    {slots : List Slot}, Node.EachAt level ns → Node.EachScoped named ns →
    Node.EachReversible schema settings.clauseIdentifier held ns →
    (ofInlines schema .clause settings margin ns).Spells context compound w slots →
    SlotsFit text held (Node.namesAll ns) slots
  | [], held, margin, w, slots, _, _, _, h => by
    rw [ofInlines] at h
    obtain ⟨_, rfl⟩ := h
    exact .nil
  | n :: rest, held, margin, w, slots, ⟨hl, hrest⟩, ⟨hs, hsrest⟩, ⟨hn, hnrest⟩, h => by
    rw [ofInlines] at h
    obtain ⟨_, _, _, _, _, rfl, h₁, h₂⟩ := h
    exact (slotsFit_ofNode n hl hs hn h₁).append (slotsFit_ofInlines rest hrest hsrest hnrest h₂)

theorem slotsFit_ofItems {level : Level} {named : Bool} : ∀ (ns : List Node) {held : Held}
    {margin lead w : List Char} {kind : ListKind} {number : Nat} {slots : List Slot},
    Node.EachAt level ns → Node.EachScoped named ns →
    Node.EachReversible schema settings.clauseIdentifier held ns →
    (ofItems schema .clause settings margin kind lead number ns).Spells context compound w slots →
    SlotsFit text held (Node.namesAll ns) slots
  | [], held, margin, lead, w, kind, number, slots, _, _, _, h => by
    rw [ofItems] at h
    obtain ⟨_, rfl⟩ := h
    exact .nil
  | n :: rest, held, margin, lead, w, kind, number, slots, ⟨hl, hrest⟩, ⟨hs, hsrest⟩, ⟨hn, hnrest⟩, h => by
    rw [ofItems] at h
    obtain ⟨_, _, _, _, rfl, rfl, ⟨rfl, rfl⟩, v₁, _, s₁, _, rfl, rfl, h₁, v₂, _, s₂, _, rfl, rfl, h₂,
      rfl, rfl⟩ := h
    rw [List.nil_append, List.append_nil]
    exact (slotsFit_ofNode n hl hs hn h₁).append (slotsFit_ofItems rest hrest hsrest hnrest h₂)

end

end Grammar

end ClauseTemplates
