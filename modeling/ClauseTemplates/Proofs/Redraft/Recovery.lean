import Mathlib
import ClauseTemplates.Proofs.Markup.Level
import ClauseTemplates.Proofs.Parsing.Accepted
import ClauseTemplates.Proofs.Redraft.Scopes
import ClauseTemplates.Proofs.Template.Equality

namespace ClauseTemplates

open Json

/-- The texts of a node at a level, and the text that they make up. -/
def Level.Forms (margin : List Char) : Level → List (List Char) → List Char → Prop
  | .block, texts, w => texts ≠ [] ∧ Markdown.blockText margin texts = w
  | .item, texts, w => texts = [w]
  | .inline, texts, w => texts.flatten = w

theorem mapM_of_forall₂ {α β : Type} {f : α → Option β} {as : List α} {bs : List β}
    (h : List.Forall₂ (fun a b => f a = some b) as bs) : as.mapM f = some bs := by
  induction h with
  | nil => rfl
  | cons hab _ ih =>
    rw [List.mapM_cons, hab, ih]
    rfl

/-- What holds item by item of a list, that of what is made of its items. -/
theorem forall₂_between {α β γ δ : Type} {R : α → β → Prop} {S : β → γ → Prop} {T : γ → δ → Prop}
    {f : δ → α} {as : List α} {bs : List β} {cs : List γ} (h : List.Forall₂ R as bs)
    (h' : List.Forall₂ S bs cs) (hstep : ∀ a b c, R a b → S b c → ∃ d, T c d ∧ a = f d) :
    ∃ ds, List.Forall₂ T cs ds ∧ as = ds.map f := by
  induction h generalizing cs with
  | nil =>
    cases h'
    exact ⟨[], .nil, rfl⟩
  | cons hab _ ih =>
    cases h' with
    | cons hbc htail =>
      obtain ⟨d, ht, rfl⟩ := hstep _ _ _ hab hbc
      obtain ⟨ds, hts, rfl⟩ := ih htail
      exact ⟨d :: ds, .cons ht hts, rfl⟩

namespace Grammar

open Drafting Markdown

variable {schema : Schema} {settings : Settings} {scan : ScanContext}
  {compounds : String → Scanner Char Captured} {text : List Char} {context : DraftContext}
  {compound : List Char → List Node → Json → Option (List (List Char))}

mutual

/-- A text that a node spells is the draft of every scope that holds what the text shows. -/
theorem recovers_node (hkind : context.kind = .clause) {level : Level} {named : Bool} : ∀ (n : Node) {held : Held}
    {margin w : List Char} {slots : List Slot} {scope : Json}, n.At level →
    n.Scoped named → n.Reversible schema settings.clauseIdentifier held → Node.Exclusive n.blocks n.names →
    (ofNode schema .clause settings margin n).Spells scan compounds w slots →
    Holds text held scope n.blocks slots →
    ∃ texts, texts? schema settings.bullet context compound margin n scope = some texts ∧
      level.Forms margin texts w
  | .variable v, held, margin, w, slots, scope, hl, _, hn, _, h, hs => by
    obtain rfl : level = .inline := hl
    rw [ofNode] at h
    obtain ⟨c, start, rfl, h⟩ := h
    obtain ⟨value, hget, hc⟩ := hs.fits _ _ _ (List.mem_singleton_self _)
    refine ⟨[w], ?_, by simp [Level.Forms]⟩
    rw [texts?]
    refine variableTexts?_of_spells ?_ h hget hc
    cases held with
    | record _ => exact Or.inl hn
    | value types => exact Or.inr ⟨types, hn⟩
  | .conditional name condition whenTrue whenFalse, held, margin, w, slots, scope, ⟨hl, ht, hf⟩,
      ⟨_, hst, hsf⟩, hn, hx, h, hs => by
    obtain rfl : level = .inline := hl
    cases held with
    | value _ => exact hn.elim
    | record filled =>
      obtain ⟨_, rfl, hrt, hrf⟩ := hn
      rw [ofNode, if_neg (by simp)] at h
      rw [texts?]
      have hlive {shown : List Slot} {start : Nat} {b : Bool}
          (hs : Holds text (.record filled) scope (Node.blocks (.conditional name none whenTrue whenFalse))
            (shown ++ [.mk name (.value (.bool b)) start])) :
          isLive? context.now name none scope = some b := by
        obtain ⟨value, hget, hc⟩ := hs.fits name _ start (List.mem_append_right _ (List.mem_singleton_self _))
        obtain rfl := Captured.value_foldsTo hc
        rw [isLive?, hget]
        rfl
      rcases h with ⟨shown, start, rfl, h⟩ | ⟨shown, start, rfl, h⟩
      · rw [hlive hs, Option.bind_some, if_pos rfl]
        rw [Node.blocks] at hx hs
        rw [Node.names] at hx
        exact recovers_inlines hkind whenTrue ht hst hrt hx.tail h
          (hs.shown (hx.head (Node.blocksAll_subset whenTrue)))
      · rw [hlive hs, Option.bind_some, if_neg Bool.false_ne_true]
        have hfit : SlotsFit text (.value []) (Node.namesAll whenFalse) shown :=
          slotsFit_ofInlines whenFalse hf hsf (hrf.nothing hsf) h
        rw [Node.namesAll_nothing (hrf.nothing hsf)] at hfit
        rw [hfit.eq_nil] at h
        exact recovers_inlines hkind whenFalse hf hsf (hrf.nothing hsf) (Node.exclusive_value (hrf.nothing hsf)) h .nothing
  | .optional name type whenSome whenNone, held, margin, w, slots, scope, ⟨hl, hsome, hnone⟩,
      ⟨_, hss, hsn⟩, hn, hx, h, hs => by
    obtain rfl : level = .inline := hl
    cases held with
    | value _ => exact hn.elim
    | record filled =>
      obtain ⟨_, hfilled, hrn, hrs⟩ := hn
      rw [ofNode] at h
      rw [texts?]
      rcases h with ⟨c, start, rfl, inner, rfl, h⟩ | h
      · obtain ⟨value, hget, hc⟩ := hs.fits _ _ _ (List.mem_singleton_self _)
        rw [hget]
        dsimp only
        rcases hrs with ⟨rfl, hthis, hrs⟩ | ⟨⟨record, rfl, hrec⟩, hxs, hrs⟩
        · have hfit : SlotsFit text (.value ["String"]) (Node.namesAll whenSome) inner :=
            slotsFit_ofInlines whenSome hsome hss hrs h
          rw [(hfit.element_value hthis _).1] at hc
          exact recovers_inlines hkind whenSome hsome hss hrs (Node.exclusive_value hrs) h
            (.ofValue hc hfit fun name hname => (Node.namesAll_value whenSome hrs name hname).1)
        · have hfit : SlotsFit text (.record ["$class"]) (Node.namesAll whenSome) inner :=
            slotsFit_ofInlines whenSome hsome hss hrs h
          have hthis := Node.this_not_namedAll whenSome hrs
          rw [Option.getD_some, elementType, if_pos hrec, hfit.element_record hthis] at hc
          exact recovers_inlines hkind whenSome hsome hss hrs hxs h
            (Holds.ofRecord hc hfit hthis (Node.blocksAll_subset whenSome) (by simp) (by simp)).2
      · have hfit : SlotsFit text (.value []) (Node.namesAll whenNone) slots :=
          slotsFit_ofInlines whenNone hnone hsn (hrn.nothing hsn) h
        rw [Node.namesAll_nothing (hrn.nothing hsn)] at hfit
        obtain rfl := hfit.eq_nil
        rw [hs.lacks filled rfl name (by simp [Node.blocks]) hfilled (by simp)]
        exact recovers_inlines hkind whenNone hnone hsn (hrn.nothing hsn) (Node.exclusive_value (hrn.nothing hsn)) h .nothing
  | .within name type children, held, margin, w, slots, scope, ⟨hl, hc⟩, ⟨_, hsc⟩, hn, hx, h, hs => by
    obtain rfl : level = .inline := hl
    cases held with
    | value _ => exact hn.elim
    | record filled =>
      obtain ⟨_, hxc, hrc⟩ := hn
      rw [ofNode] at h
      obtain ⟨c, start, rfl, inner, rfl, h⟩ := h
      obtain ⟨value, hget, hv⟩ := hs.fits _ _ _ (List.mem_singleton_self _)
      obtain ⟨hobj, hholds⟩ := Holds.ofRecord hv (slotsFit_ofInlines children hc hsc hrc h)
        (Node.this_not_namedAll children hrc) (Node.blocksAll_subset children) (by simp) (by simp)
      rw [texts?, object?, hget, Option.bind_some, if_pos hobj]
      exact recovers_inlines hkind children hc hsc hrc hxc h hholds
  | .list name kind type children, held, margin, w, slots, scope, ⟨hlevel, hl⟩, ⟨_, hsc⟩, hn,
      hx, h, hs => by
    obtain rfl : level = .block := hlevel
    cases held with
    | value _ => exact hn.elim
    | record filled =>
      obtain ⟨_, rfl, rfl, hthis, hrc⟩ := hn
      rw [ofNode] at h
      obtain ⟨c, start, rfl, h⟩ := h
      obtain ⟨_, _, hne⟩ | ⟨first, others, parts, rfl, rfl, hall⟩ := h
      · cases hne
      obtain ⟨value, hget, n, m, hv⟩ := hs.fits _ _ _ (List.mem_singleton_self _)
      obtain ⟨vs, hvs, rfl⟩ := Captured.run_fold_array.mp hv
      obtain ⟨items, hitems, hw⟩ := forall₂_between (δ := List (List Char))
        (T := fun v ts => textsAll? schema settings.bullet context compound
          (margin ++ itemIndent .bullet) children v = some ts)
        (f := fun ts => [settings.bullet, ' '] ++ blockText (margin ++ itemIndent .bullet) ts)
        hall (Captured.foldItems_foldsTo hvs) fun w c v h hc => by
          obtain ⟨inner, rfl, _, v', _, s, rfl, rfl, ⟨rfl, rfl⟩, h⟩ := h
          have hfit : SlotsFit text (.value ["String"]) (Node.namesAll children) s :=
            slotsFit_ofEach children hl hsc hrc (Or.inl h)
          rw [List.nil_append, (hfit.element_value hthis _).1] at hc
          obtain ⟨ts, hts, rfl, _⟩ := recovers_blocks hkind children hl hsc hrc (Node.exclusive_value hrc) h
            (.ofValue hc hfit fun name hname => (Node.namesAll_value children hrc name hname).1)
          exact ⟨ts, hts, rfl⟩
      rw [texts?, array?, hget, Option.bind_some, items?, Option.bind_some, mapM_of_forall₂ hitems]
      cases hitems with
      | nil => cases hw
      | cons _ _ =>
        obtain ⟨rfl, rfl⟩ := List.cons.inj hw
        refine ⟨_, rfl, List.cons_ne_nil _ _, ?_⟩
        rw [blockText, laterText, List.flatMap_nil, List.append_nil, List.map_cons, itemText,
          itemText_later, List.flatMap_map, List.flatMap_map]
        rfl
  | .join name type separator children, held, margin, w, slots, scope, ⟨hlevel, hl⟩, ⟨_, hsc⟩, hn,
      hx, h, hs => by
    obtain rfl : level = .inline := hlevel
    cases held with
    | value _ => exact hn.elim
    | record filled =>
      obtain ⟨_, rfl, hthis, hrc⟩ := hn
      rw [ofNode] at h
      obtain ⟨c, start, rfl, h⟩ := h
      obtain ⟨value, hget, n, m, hv⟩ := hs.fits _ _ _ (List.mem_singleton_self _)
      obtain ⟨rfl, rfl, _⟩ | ⟨first, others, parts, rfl, rfl, hall⟩ := h
      · obtain ⟨vs, hvs, rfl⟩ := Captured.run_fold_array.mp hv
        rw [Captured.foldItems] at hvs
        obtain ⟨rfl, _⟩ := Folding.run_pure_eq_ok.mp hvs
        rw [texts?, array?, hget]
        exact ⟨[], rfl, rfl⟩
      obtain ⟨vs, hvs, rfl⟩ := Captured.run_fold_array.mp hv
      obtain ⟨items, hitems, hw⟩ := forall₂_between (δ := List (List Char))
        (T := fun v ts => textsAll? schema settings.bullet context compound margin children v = some ts)
        (f := List.flatten) hall (Captured.foldItems_foldsTo hvs) fun w c v h hc => by
          obtain ⟨inner, rfl, h⟩ := h
          have hfit : SlotsFit text (.value ["String"]) (Node.namesAll children) inner :=
            slotsFit_ofInlines children hl hsc hrc h
          rw [(hfit.element_value hthis _).1] at hc
          obtain ⟨ts, hts, rfl⟩ := recovers_inlines hkind children hl hsc hrc (Node.exclusive_value hrc) h
            (.ofValue hc hfit fun name hname => (Node.namesAll_value children hrc name hname).1)
          exact ⟨ts, hts, rfl⟩
      rw [texts?, array?, hget, Option.bind_some, items?, Option.bind_some, mapM_of_forall₂ hitems]
      cases items with
      | nil => cases hw
      | cons ts more =>
        obtain ⟨rfl, rfl⟩ := List.cons.inj hw
        refine ⟨_, rfl, ?_⟩
        rw [Level.Forms, joinedTexts_flatten, List.flatMap_map]
  | .clause name type src condition children, held, margin, w, slots, scope, ⟨hl, _, hc⟩,
      ⟨_, hsc⟩, hn, hx, h, hs => by
    obtain rfl : level = .block := hl
    cases held with
    | value _ => exact hn.elim
    | record filled =>
      obtain ⟨_, rfl, hne, hxc, hrc⟩ := hn
      rw [ofNode, if_neg (by simp)] at h
      obtain ⟨c, start, rfl, inner, rfl, h⟩ := h
      obtain ⟨value, hget, hv⟩ := hs.fits _ _ _ (List.mem_singleton_self _)
      obtain ⟨hobj, hholds⟩ := Holds.ofRecord hv (slotsFit_ofEach children hc hsc hrc (Or.inl h))
        (Node.this_not_namedAll children hrc) (Node.blocksAll_subset children) (by simp) (by simp)
      obtain ⟨ts, hts, hw, hnil⟩ := recovers_blocks hkind children hc hsc hrc hxc h hholds
      refine ⟨ts, ?_, hnil hne, hw⟩
      rw [texts?, object?, hget, Option.bind_some, if_pos hobj, Option.bind_some, hts, hkind]
      rfl
  | .leaf l, held, margin, w, slots, scope, hl, _, _, _, h, _ => by
    rw [ofNode] at h
    rw [texts?]
    refine ⟨_, rfl, ?_⟩
    cases l with
    | fragment _ => cases hl
    | formula _ _ => cases hl
    | codeBlock _ _ =>
      cases hl
      exact ⟨List.cons_ne_nil _ _, by simp [blockText, laterText, h.1]⟩
    | thematicBreak =>
      cases hl
      exact ⟨List.cons_ne_nil _ _, by simp [blockText, laterText, h.1]⟩
    | _ =>
      cases hl
      simp [Level.Forms, h.1]
  | .markup frame children, held, margin, w, slots, scope, ⟨inner, hf, hl⟩, hsc, hn, hx, h,
      hs => by
    rw [Node.blocks] at hx hs
    rw [Node.names] at hx
    rw [texts?]
    have hframe {ts : List (List Char)}
        (hts : textsAll? schema settings.bullet context compound (innerMargin margin frame) children
          scope = some ts) (hw : frameText settings.bullet margin frame ts = w) :
        ∃ texts, (textsAll? schema settings.bullet context compound (innerMargin margin frame) children
          scope).map (fun inner => [frameText settings.bullet margin frame inner]) = some texts ∧
          level.Forms margin texts w := by
      refine ⟨[w], by rw [hts, Option.map_some, hw], ?_⟩
      cases level <;> simp [Level.Forms, blockText, laterText]
    cases frame with
    | document _ => cases hf
    | clause _ _ _ => cases hf
    | paragraph =>
      cases hf
      rw [ofNode] at h
      obtain ⟨ts, hts, hw⟩ := recovers_inlines hkind children hl hsc hn.children hx h hs
      exact hframe hts hw
    | heading _ =>
      cases hf
      rw [ofNode] at h
      obtain ⟨_, _, _, _, rfl, rfl, ⟨rfl, rfl⟩, h⟩ := h
      obtain ⟨ts, hts, rfl⟩ := recovers_inlines hkind children hl hsc hn.children hx h hs
      exact hframe hts rfl
    | blockQuote =>
      cases hf
      rw [ofNode] at h
      obtain ⟨_, _, _, _, rfl, rfl, ⟨rfl, rfl⟩, h⟩ := h
      obtain ⟨ts, hts, rfl, _⟩ := recovers_blocks hkind children hl hsc hn.children hx h hs
      exact hframe hts rfl
    | list kind start =>
      cases hf
      rw [ofNode] at h
      obtain ⟨ts, hts, hw⟩ := recovers_items hkind children hl hsc hn.children hx h hs
      exact hframe hts hw
    | item =>
      cases hf
      rw [ofNode] at h
      obtain ⟨ts, hts, hw, _⟩ := recovers_blocks hkind children hl hsc hn.children hx h hs
      exact hframe hts hw
    | emph =>
      cases hf
      rw [ofNode] at h
      obtain ⟨v, rfl, hv⟩ := spells_enclosed h
      obtain ⟨ts, hts, rfl⟩ := recovers_inlines hkind children hl hsc hn.children hx hv hs
      exact hframe hts rfl
    | strong =>
      cases hf
      rw [ofNode] at h
      obtain ⟨v, rfl, hv⟩ := spells_enclosed h
      obtain ⟨ts, hts, rfl⟩ := recovers_inlines hkind children hl hsc hn.children hx hv hs
      exact hframe hts rfl
  | .enumVariable _, held, _, _, _, _, _, _, hn, _, _, _ => by cases held <;> exact hn.elim
  | .formula _, held, _, _, _, _, _, _, hn, _, _, _ => by cases held <;> exact hn.elim
  | .contract _ _, held, _, _, _, _, hl, _, _, _, _, _ => hl.elim

theorem recovers_blocks (hkind : context.kind = .clause) {named : Bool} : ∀ (ns : List Node) {held : Held}
    {margin w : List Char} {slots : List Slot} {scope : Json}, Node.EachAt .block ns →
    Node.EachScoped named ns → Node.EachReversible schema settings.clauseIdentifier held ns →
    Node.Exclusive (Node.blocksAll ns) (Node.namesAll ns) →
    (ofBlocks margin (ofEach schema .clause settings margin ns)).Spells scan compounds w slots →
    Holds text held scope (Node.blocksAll ns) slots →
    ∃ texts, textsAll? schema settings.bullet context compound margin ns scope = some texts ∧
      blockText margin texts = w ∧ (ns ≠ [] → texts ≠ [])
  | [], held, margin, w, slots, scope, _, _, _, _, h, _ => by
    rw [ofEach, ofBlocks, Compiling.assemble] at h
    refine ⟨[], by rw [textsAll?], h.1.symm, fun hne => absurd rfl hne⟩
  | n :: rest, held, margin, w, slots, scope, ⟨hl, hlrest⟩, ⟨hsc, hscrest⟩, ⟨hn, hnrest⟩, hx, h, hs => by
    rw [ofEach, ofBlocks, spells_assemble_first] at h
    rcases h with ⟨v₁, v₂, s₁, s₂, rfl, rfl, h₁, h₂⟩ | ⟨he, _⟩
    · obtain ⟨ts, hts, hne, rfl⟩ := recovers_node hkind n hl hsc hn hx.left h₁
        (hs.left hx n.blocks_subset (slotsFit_ofEach rest hlrest hscrest hnrest (Or.inr h₂)))
      obtain ⟨more, hmore, hlater⟩ := recovers_later hkind rest hlrest hscrest hnrest hx.right h₂
        (hs.right hx (Node.blocksAll_subset rest) (slotsFit_ofNode n hl hsc hn h₁))
      refine ⟨ts ++ more, by rw [textsAll?, hts, hmore]; rfl, ?_, ?_⟩
      · rw [blockText_append margin hne, hlater]
      · intro _ hnil
        exact hne (List.append_eq_nil_iff.mp hnil).1
    · exact absurd he hn.not_elidable

theorem recovers_later (hkind : context.kind = .clause) {named : Bool} : ∀ (ns : List Node) {held : Held}
    {margin w : List Char} {slots : List Slot} {scope : Json}, Node.EachAt .block ns →
    Node.EachScoped named ns → Node.EachReversible schema settings.clauseIdentifier held ns →
    Node.Exclusive (Node.blocksAll ns) (Node.namesAll ns) →
    (Compiling.assemble (blockSeparator margin)
      (ofEach schema .clause settings margin ns)).2.Spells scan compounds w slots →
    Holds text held scope (Node.blocksAll ns) slots →
    ∃ texts, textsAll? schema settings.bullet context compound margin ns scope = some texts ∧
      laterText margin texts = w
  | [], held, margin, w, slots, scope, _, _, _, _, h, _ => by
    rw [ofEach, Compiling.assemble] at h
    exact ⟨[], by rw [textsAll?], h.1.symm⟩
  | n :: rest, held, margin, w, slots, scope, ⟨hl, hlrest⟩, ⟨hsc, hscrest⟩, ⟨hn, hnrest⟩, hx, h, hs => by
    rw [ofEach, spells_assemble_later] at h
    rcases h with ⟨v₁, v₂, s₁, s₂, rfl, rfl, h₁, h₂⟩ | ⟨he, _⟩
    · obtain ⟨ts, hts, hne, rfl⟩ := recovers_node hkind n hl hsc hn hx.left h₁
        (hs.left hx n.blocks_subset (slotsFit_ofEach rest hlrest hscrest hnrest (Or.inr h₂)))
      obtain ⟨more, hmore, hlater⟩ := recovers_later hkind rest hlrest hscrest hnrest hx.right h₂
        (hs.right hx (Node.blocksAll_subset rest) (slotsFit_ofNode n hl hsc hn h₁))
      refine ⟨ts ++ more, by rw [textsAll?, hts, hmore]; rfl, ?_⟩
      rw [laterText_append, laterText_of_ne margin hne, hlater, List.append_assoc]
    · exact absurd he hn.not_elidable

theorem recovers_inlines (hkind : context.kind = .clause) {named : Bool} : ∀ (ns : List Node) {held : Held}
    {margin w : List Char} {slots : List Slot} {scope : Json}, Node.EachAt .inline ns →
    Node.EachScoped named ns → Node.EachReversible schema settings.clauseIdentifier held ns →
    Node.Exclusive (Node.blocksAll ns) (Node.namesAll ns) →
    (ofInlines schema .clause settings margin ns).Spells scan compounds w slots →
    Holds text held scope (Node.blocksAll ns) slots →
    ∃ texts, textsAll? schema settings.bullet context compound margin ns scope = some texts ∧
      texts.flatten = w
  | [], held, margin, w, slots, scope, _, _, _, _, h, _ => by
    rw [ofInlines] at h
    exact ⟨[], by rw [textsAll?], h.1.symm⟩
  | n :: rest, held, margin, w, slots, scope, ⟨hl, hlrest⟩, ⟨hsc, hscrest⟩, ⟨hn, hnrest⟩, hx, h, hs => by
    rw [ofInlines] at h
    obtain ⟨v₁, v₂, s₁, s₂, rfl, rfl, h₁, h₂⟩ := h
    obtain ⟨ts, hts, hforms⟩ := recovers_node hkind n hl hsc hn hx.left h₁
      (hs.left hx n.blocks_subset (slotsFit_ofInlines rest hlrest hscrest hnrest h₂))
    obtain ⟨more, hmore, hflat⟩ := recovers_inlines hkind rest hlrest hscrest hnrest hx.right h₂
      (hs.right hx (Node.blocksAll_subset rest) (slotsFit_ofNode n hl hsc hn h₁))
    refine ⟨ts ++ more, by rw [textsAll?, hts, hmore]; rfl, ?_⟩
    rw [List.flatten_append, hforms, hflat]

theorem recovers_items (hkind : context.kind = .clause) {named : Bool} : ∀ (ns : List Node) {held : Held}
    {margin lead w : List Char} {kind : ListKind} {number : Nat} {slots : List Slot} {scope : Json},
    Node.EachAt .item ns → Node.EachScoped named ns →
    Node.EachReversible schema settings.clauseIdentifier held ns →
    Node.Exclusive (Node.blocksAll ns) (Node.namesAll ns) →
    (ofItems schema .clause settings margin kind lead number ns).Spells scan compounds w slots →
    Holds text held scope (Node.blocksAll ns) slots →
    ∃ texts, textsAll? schema settings.bullet context compound (margin ++ itemIndent kind) ns scope =
      some texts ∧ itemText settings.bullet margin kind lead number texts = w
  | [], held, margin, lead, w, kind, number, slots, scope, _, _, _, _, h, _ => by
    rw [ofItems] at h
    exact ⟨[], by rw [textsAll?], h.1.symm⟩
  | n :: rest, held, margin, lead, w, kind, number, slots, scope, ⟨hl, hlrest⟩, ⟨hsc, hscrest⟩, ⟨hn, hnrest⟩, hx, h,
      hs => by
    rw [ofItems] at h
    obtain ⟨_, _, _, _, rfl, rfl, ⟨rfl, rfl⟩, v₁, _, s₁, _, rfl, rfl, h₁, v₂, _, s₂, _, rfl, rfl, h₂,
      rfl, rfl⟩ := h
    rw [List.nil_append, List.append_nil] at hs
    obtain ⟨ts, hts, rfl⟩ := recovers_node hkind n hl hsc hn hx.left h₁
      (hs.left hx n.blocks_subset (slotsFit_ofItems rest hlrest hscrest hnrest h₂))
    obtain ⟨more, hmore, hlater⟩ := recovers_items hkind rest hlrest hscrest hnrest hx.right h₂
      (hs.right hx (Node.blocksAll_subset rest) (slotsFit_ofNode n hl hsc hn h₁))
    refine ⟨[v₁] ++ more, by rw [textsAll?, hts, hmore]; rfl, ?_⟩
    rw [List.singleton_append, itemText, hlater]
    simp

end

end Grammar

/-- An accepted text of a clause template is the draft of what it parses to, with blanks behind it. -/
theorem Template.text?_parse {t : Template} {scan : ScanContext} {table : Table} {p : TemplateParser}
    {text : String} {n : Nat} {value : Json} (hkind : t.kind = .clause)
    (hl : Node.EachAt .block t.body) (hs : Node.EachScoped true t.body)
    (hr : Node.EachReversible table.schema table.settings.clauseIdentifier
      (.record ["$class", table.settings.clauseIdentifier]) t.body)
    (hx : Node.Exclusive (Node.blocksAll t.body) (Node.namesAll t.body)) (hf : table.Faithful)
    (hp : (t.parser scan table).1 = .ok p) (hv : p.parse text n = .ok value) (now : Instant) :
    ∃ w blanks, t.text? table.schema table.settings.bullet value now = some w ∧
      text.toList = w ++ blanks ∧ Text.allBlank blanks = true := by
  obtain ⟨w, blanks, compounds, slots, fields, k, htext, hblanks, h, hfields, rfl⟩ :=
    Template.spelled hf hp hv
  have hid : t.identifier table.settings = table.settings.clauseIdentifier := by
    rw [Template.identifier, hkind]
  rw [Template.grammar, hkind] at h
  have hholds : Holds text.toList (.record ["$class", table.settings.clauseIdentifier])
      (.obj (Captured.identified (some (t.identifier table.settings)) fields k).1)
      (Node.blocksAll t.body) slots :=
    .ofFields hfields (Grammar.slotsFit_ofEach t.body hl hs hr (Or.inl h))
      (Node.this_not_namedAll t.body hr) (Node.blocksAll_subset t.body) (by simp) (by simp [hid])
  set value := Json.obj (Captured.identified (some (t.identifier table.settings)) fields k).1
  let context : DraftContext := ⟨value, now, t.kind⟩
  have hrecover : ∃ texts, Drafting.textsAll? table.schema table.settings.bullet context
      (Drafting.compoundTexts? table.schema table.settings.bullet context
        (Drafting.levels table.schema value)) [] t.body value = some texts ∧
      Markdown.blockText [] texts = w :=
    (Grammar.recovers_blocks hkind t.body hl hs hr hx h hholds).imp fun _ h => ⟨h.1, h.2.1⟩
  obtain ⟨texts, htexts, rfl⟩ := hrecover
  refine ⟨_, blanks, ?_, htext, hblanks⟩
  rw [Template.text?, if_pos (show value.isObject = true from rfl)]
  exact congrArg (Option.map (Markdown.blockText [])) htexts

/-- Every text that the parser of a reversible clause template accepts is the draft of what it parses
to, with blanks behind it. -/
theorem Template.parse_redraft {type markup : String} {t : Template} {scan : ScanContext}
    {table : Table} {p : TemplateParser} (ht : Template.ofMarkup table.schema .clause type markup = .ok t)
    (hr : Node.EachReversible table.schema table.settings.clauseIdentifier
      (.record ["$class", table.settings.clauseIdentifier]) t.body)
    (hx : Node.Exclusive (Node.blocksAll t.body) (Node.namesAll t.body)) (hf : table.Faithful)
    (hp : (t.parser scan table).1 = .ok p) (text : String) (n : Nat) (value : Json)
    (hv : p.parse text n = .ok value) (now : Instant) (s : DraftState)
    (hs : Drafting.Ready table.schema table.settings s) :
    ∃ doc s' blanks, (t.draft value now).run s = (.ok doc, s') ∧ Text.allBlank blanks = true ∧
      text = Markdown.render table.settings.bullet [doc] ++ String.ofList blanks := by
  obtain ⟨hkind, _, hl⟩ := Template.ofMarkup_at ht
  obtain ⟨w, blanks, hw, htext, hblanks⟩ := Template.text?_parse hkind hl
    (Template.ofMarkup_scoped ht) hr hx hf hp hv now
  have hd := Template.agrees_draft t table.schema table.settings table.settings.bullet value now
  rw [hw] at hd
  obtain ⟨doc, s', hrun, rfl, _⟩ := hd.yields hs
  refine ⟨doc, s', blanks, hrun, hblanks, String.toList_inj.mp ?_⟩
  rw [htext, Markdown.render_singleton, String.toList_append, String.toList_ofList,
    String.toList_ofList]

namespace Invoice

def schema : Schema :=
  ⟨[.concept "Clause" [.plain "buyer" "String", .plain "paid" "Boolean",
    { Property.plain "note" "String" with optional := true },
    { Property.plain "goods" "String" with array := true }]]⟩

def markup : String :=
  "\x7b\x7bbuyer\x7d\x7d\x7b\x7b#if paid\x7d\x7d paid\x7b\x7belse\x7d\x7d owes\x7b\x7b/if\x7d\x7d" ++
  "\x7b\x7b#optional note\x7d\x7d: \x7b\x7bthis\x7d\x7d\x7b\x7belse\x7d\x7d.\x7b\x7b/optional\x7d\x7d\n\n" ++
  "\x7b\x7b#ulist goods\x7d\x7d\n- \x7b\x7bthis\x7d\x7d\n\x7b\x7b/ulist\x7d\x7d"

def string (name : String) : Node := .variable ⟨name, some "String", none, none, []⟩

def template : Template :=
  ⟨.clause, "Clause", [
    .markup .paragraph [string "buyer", .conditional "paid" none [.text " paid"] [.text " owes"],
      .optional "note" (some "String") [.text ": ", string thisName] [.text "."]],
    .list "goods" .bullet (some "String") [.markup .paragraph [string thisName]]]⟩

def context : ScanContext := ⟨0, ⟨0, 0, 0⟩⟩

def parser : TemplateParser :=
  ⟨context, [], .record "Clause" (some "clauseId") (template.grammar schema .standard)⟩

def text : String := "\x22A\x22 owes: \x22x\x22\n\n- \x22b\x22\n- \x22c\x22\n"

def record : Json :=
  .obj [("$class", .str "Clause"), ("buyer", .str "A"), ("clauseId", .str (Identifier.numbered 0)),
    ("goods", .arr [.str "b", .str "c"]), ("note", .str "x"), ("paid", .bool false)]

theorem reversible : Node.EachReversible schema "clauseId" (.record ["$class", "clauseId"])
    template.body ∧ Node.Exclusive (Node.blocksAll template.body) (Node.namesAll template.body) := by
  constructor
  · simp [template, string, Node.text, Node.EachReversible, Node.Reversible, Variable.IsField,
      Variable.IsThis, plainTypes, thisName, Node.namesAll, Node.names]
  · unfold Node.Exclusive
    decide

set_option maxRecDepth 100000 in
theorem parse_redraft_text : parser.parse text 0 = .ok record ∧
    ∃ doc s' blanks, (template.draft record ⟨0, 0, 0⟩).run ⟨Table.empty schema .standard, 1⟩ =
      (.ok doc, s') ∧ Text.allBlank blanks = true ∧
      text = Markdown.render '-' [doc] ++ String.ofList blanks := by
  have hparse : parser.parse text 0 = .ok record := by cbv
  have hmarkup : Template.ofMarkup schema .clause "Clause" markup = .ok template :=
    Template.eq_ok_of_equal (by decide +kernel)
  have hparser : (template.parser context (Table.empty schema .standard)).1 = .ok parser := by cbv
  exact ⟨hparse, @Template.parse_redraft _ _ _ _ (Table.empty schema .standard) _ hmarkup reversible.1
    reversible.2 (Table.faithful_empty schema .standard) hparser text 0 record hparse ⟨0, 0, 0⟩
    ⟨Table.empty schema .standard, 1⟩ ⟨rfl, rfl, Table.faithful_empty schema .standard⟩⟩

end Invoice

namespace FilledIn

def schema : Schema :=
  ⟨[.concept "Clause" [{ Property.plain "clauseId" "String" with optional := true },
    { Property.plain "$class" "String" with optional := true }]]⟩

def markup (name : String) : String :=
  "\x7b\x7b#optional " ++ name ++ "\x7d\x7dis \x7b\x7bthis\x7d\x7d\x7b\x7belse\x7d\x7dnone\x7b\x7b/optional\x7d\x7d"

def template (name : String) : Template :=
  ⟨.clause, "Clause", [.markup .paragraph [.optional name (some "String")
    [.text "is ", .variable ⟨thisName, some "String", none, none, []⟩] [.text "none"]]]⟩

def context : ScanContext := ⟨0, ⟨0, 0, 0⟩⟩

def parser (name : String) : TemplateParser :=
  ⟨context, [], .record "Clause" (some "clauseId") ((template name).grammar schema .standard)⟩

def record : Json := .obj [("$class", .str "Clause"), ("clauseId", .str (Identifier.numbered 0))]

/-- The text of a template for a record. -/
def redraft (name : String) (data : Json) : Option String :=
  match (((template name).draft data ⟨0, 0, 0⟩).run ⟨Table.empty schema .standard, 1⟩).1 with
  | .ok doc => some (Markdown.render '-' [doc])
  | .error _ => none

set_option maxRecDepth 100000 in
/-- A block for an absent value shows a field that parsing fills in. -/
theorem parse_redraft_filled :
    (Node.EachReversible schema "clauseId" (.record []) (template "clauseId").body ∧
      Template.ofMarkup schema .clause "Clause" (markup "clauseId") = .ok (template "clauseId") ∧
      ((template "clauseId").parser context (Table.empty schema .standard)).1 =
        .ok (parser "clauseId") ∧
      (parser "clauseId").parse "none" 0 = .ok record ∧
      redraft "clauseId" record = some "is \x2200000000-0000-4000-8000-000000000000\x22") ∧
    Node.EachReversible schema "clauseId" (.record []) (template "$class").body ∧
      Template.ofMarkup schema .clause "Clause" (markup "$class") = .ok (template "$class") ∧
      ((template "$class").parser context (Table.empty schema .standard)).1 = .ok (parser "$class") ∧
      (parser "$class").parse "none" 0 = .ok record ∧
      redraft "$class" record = some "is \x22Clause\x22" := by
  have hreversible (name : String) (hname : name ≠ thisName) :
      Node.EachReversible schema "clauseId" (.record []) (template name).body := by
    simpa [template, Node.text, Node.EachReversible, Node.Reversible, Variable.IsThis, plainTypes,
      Node.namesAll, Node.names] using hname
  refine ⟨⟨hreversible _ (by decide), Template.eq_ok_of_equal (by decide +kernel), by cbv, by cbv, by cbv⟩,
    hreversible _ (by decide), Template.eq_ok_of_equal (by decide +kernel), by cbv, by cbv, by cbv⟩

end FilledIn

end ClauseTemplates
