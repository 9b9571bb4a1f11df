import Mathlib
import ClauseTemplates.Proofs.Reading.Restricted
import ClauseTemplates.Proofs.Template.Equality

namespace ClauseTemplates

open Markdown Json Drafting Captured Folding

/-- Values that are written as texts of their own. -/
def Json.isText : Json → Bool
  | .str _ => true
  | .bool _ => true
  | _ => false

theorem Drafting.isText_of_told {schema : Schema} {v : Variable} {value : Json} {w : List Char}
    (h : Told schema v value w) : value.isText = true := by
  cases h with
  | @reference value id _ hid =>
    cases value with
    | str s => rfl
    | _ => cases hid
  | string => rfl
  | boolean => rfl

/-- A text tells the value itself, if references name the declared type. -/
theorem Drafting.told_eq_of_refers {schema : Schema} {v : Variable} {scope value : Json} {w : List Char}
    (h : Told schema v value w) (hrefers : (Node.variable v).Refers scope)
    (hvalue : field? scope v.name = some value) : v.told value = value := by
  cases h with
  | reference hid _ =>
    obtain ⟨type, id, htype, hsharp, hfield⟩ := hrefers hid
    obtain rfl := Option.some.inj (hvalue.symm.trans hfield)
    rw [Variable.told, if_pos hid, htype]
    simp [Json.string?, resourceId?_resourceUri id hsharp]
  | string s hid _ => simp [Variable.told, hid]
  | boolean b hid _ => simp [Variable.told, hid]

theorem Drafting.field?_of_object? {scope value : Json} {name : String}
    (h : object? scope name = some value) : field? scope name = some value ∧ value.isText = false := by
  obtain ⟨w, hw, h⟩ := Option.bind_eq_some_iff.mp h
  split at h
  · rename_i hobject
    cases h
    refine ⟨hw, ?_⟩
    cases value with
    | obj _ => rfl
    | _ => cases hobject
  · cases h

theorem Drafting.field?_of_array? {scope : Json} {name : String} {items : List Json}
    (h : array? scope name = some items) : field? scope name = some (.arr items) := by
  obtain ⟨w, hw, h⟩ := Option.bind_eq_some_iff.mp h
  cases w with
  | arr _ =>
    cases h
    exact hw
  | _ => cases h

theorem Captured.run_foldSlots_append {text : List Char} {slots more : List Slot} {fields mid found : Fields}
    {n k m : Nat} (h : (foldSlots text fields slots).run n = .ok (mid, k))
    (h' : (foldSlots text mid more).run k = .ok (found, m)) :
    (foldSlots text fields (slots ++ more)).run n = .ok (found, m) := by
  induction slots generalizing fields n with
  | nil =>
    rw [foldSlots] at h
    obtain ⟨rfl, rfl⟩ := run_pure_eq_ok.mp h
    exact h'
  | cons slot slots ih =>
    obtain ⟨name, c, start⟩ := slot
    by_cases hname : name = thisName
    · subst hname
      exact run_foldSlots_this.mpr (ih (run_foldSlots_this.mp h))
    · obtain ⟨v, j, hv, hfirst, h⟩ := (run_foldSlots_cons hname).mp h
      exact (run_foldSlots_cons hname).mpr ⟨v, j, hv, hfirst, ih h⟩

/-- Fields hold texts of the scope as they are, and other properties only of blocks that are done. -/
def Fits (scope : Json) (blocks : List String) (fields : Fields) : Prop :=
  ∀ name value, Fields.get? name fields = some value → name ≠ "$class" →
    ∃ w, field? scope name = some w ∧
      (w.isText = true ∧ value = w ∨ w.isText = false ∧ name ∉ blocks)

namespace Fits

variable {scope w value : Json} {blocks later : List String} {fields : Fields} {name : String}

theorem ofClass (type : String) : Fits scope blocks [("$class", .str type)] := by
  intro name value h hclass
  rw [Fields.get?_cons, if_neg hclass] at h
  cases h

theorem mono (h : Fits scope blocks fields) (hsub : later ⊆ blocks) : Fits scope later fields := by
  intro name value hget hclass
  obtain ⟨w, hw, hvalue⟩ := h name value hget hclass
  exact ⟨w, hw, hvalue.imp id fun h => ⟨h.1, fun hmem => h.2 (hsub hmem)⟩⟩

theorem insert (h : Fits scope later fields) (hw : field? scope name = some w)
    (hvalue : w.isText = true ∧ value = w ∨ w.isText = false ∧ name ∉ later) :
    Fits scope later (Fields.insertNew name value fields) := by
  intro other v hget hclass
  rw [Fields.get?_insertNew] at hget
  split at hget
  · rename_i heq
    subst heq
    cases hf : Fields.get? other fields with
    | none =>
      rw [hf] at hget
      cases hget
      exact ⟨w, hw, hvalue⟩
    | some first =>
      rw [hf] at hget
      cases hget
      exact h other _ hf hclass
  · exact h other v hget hclass

/-- The field of a text is the text. -/
theorem eq_of_isText (h : Fits scope later fields) (hclass : name ≠ "$class")
    (hw : field? scope name = some w) (htext : w.isText = true) {first : Json}
    (hfirst : Fields.get? name fields = some first) : first = w := by
  obtain ⟨v, hv, ⟨_, rfl⟩ | ⟨hv', _⟩⟩ := h name first hfirst hclass
  · exact Option.some.inj (hv.symm.trans hw)
  · obtain rfl := Option.some.inj (hv.symm.trans hw)
    rw [htext] at hv'
    cases hv'

/-- A text agrees with the field that is there. -/
theorem same (h : Fits scope later fields) (hclass : name ≠ "$class") (hw : field? scope name = some w)
    (htext : w.isText = true) (first : Json) (hfirst : Fields.get? name fields = some first) :
    first.same w = true := by
  rw [h.eq_of_isText hclass hw htext hfirst]
  exact same_self w

/-- The property of a block that is not done has no field. -/
theorem none (h : Fits scope blocks fields) (hmem : name ∈ blocks) (hclass : name ≠ "$class")
    (hw : field? scope name = some w) (htext : w.isText = false) : Fields.get? name fields = none := by
  cases hf : Fields.get? name fields with
  | none => rfl
  | some first =>
    obtain ⟨v, hv, ⟨hv', _⟩ | ⟨_, hnot⟩⟩ := h name first hf hclass
    · obtain rfl := Option.some.inj (hv.symm.trans hw)
      rw [htext] at hv'
      cases hv'
    · exact absurd hmem hnot

end Fits

section

variable {schema : Schema} {settings : Settings} {draft : DraftContext} {bullet : Char}
  {compound : List Char → List Node → Json → Option (List (List Char))} {reserved : List String}

mutual

/-- Nodes of a record show nothing as the current value. -/
theorem any_isThis_captures : ∀ (n : Node) (scope : Json), n.Recoverable schema reserved false →
    (captures schema settings draft.now n scope).any Slot.isThis = false
  | .variable v, scope, ⟨hthis, _, _⟩ => by
    have hname : v.name ≠ thisName := fun h => absurd (hthis.mp h) (by decide)
    simp [captures, Slot.isThis, Slot.name, hname]
  | .within name type children, scope, ⟨_, hname, _⟩ => by
    simp [captures, Slot.isThis, Slot.name, hname]
  | .list name kind type children, scope, ⟨_, hname, _⟩ => by
    simp [captures, Slot.isThis, Slot.name, hname]
  | .clause name type src condition children, scope, ⟨_, hname, _⟩ => by
    rw [captures]
    split
    · simp [Slot.isThis, Slot.name, hname]
    · rfl
  | .leaf l, scope, _ => by
    rw [captures]
    · rfl
    all_goals simp
  | .markup frame children, scope, h => by
    rw [captures]
    exact any_isThis_capturesAll children scope h
  | .enumVariable _, _, h => h.elim
  | .formula _, _, h => h.elim
  | .conditional _ _ _ _, _, h => h.elim
  | .optional _ _ _ _, _, h => h.elim
  | .join _ _ _ _, _, h => h.elim
  | .contract _ _, _, h => h.elim

theorem any_isThis_capturesAll : ∀ (ns : List Node) (scope : Json), Node.RecoverableAll schema reserved false ns →
    (capturesAll schema settings draft.now ns scope).any Slot.isThis = false
  | [], _, _ => rfl
  | n :: rest, scope, ⟨hn, hrest⟩ => by
    rw [capturesAll, List.any_append, any_isThis_captures n scope hn,
      any_isThis_capturesAll rest scope hrest]
    rfl

end

mutual

theorem names_ne_this : ∀ (n : Node), n.Recoverable schema reserved false → thisName ∉ n.names
  | .variable v, ⟨hthis, _, _⟩ => by
    have hname : v.name ≠ thisName := fun h => absurd (hthis.mp h) (by decide)
    simpa [Node.names] using hname.symm
  | .within name type children, ⟨_, hname, _⟩ => by simpa [Node.names] using hname.symm
  | .list name kind type children, ⟨_, hname, _⟩ => by simpa [Node.names] using hname.symm
  | .clause name type src condition children, ⟨_, hname, _⟩ => by simpa [Node.names] using hname.symm
  | .leaf l, _ => by simp [Node.names]
  | .markup frame children, h => names_ne_this_all children h
  | .enumVariable _, h => h.elim
  | .formula _, h => h.elim
  | .conditional _ _ _ _, h => h.elim
  | .optional _ _ _ _, h => h.elim
  | .join _ _ _ _, h => h.elim
  | .contract _ _, h => h.elim

theorem names_ne_this_all : ∀ (ns : List Node), Node.RecoverableAll schema reserved false ns →
    thisName ∉ Node.namesAll ns
  | [], _ => by simp [Node.namesAll]
  | n :: rest, ⟨hn, hrest⟩ => by
    rw [Node.namesAll]
    exact fun h => (List.mem_append.mp h).elim (names_ne_this n hn) (names_ne_this_all rest hrest)

end

mutual

/-- An item that is a text itself shows nothing else. -/
theorem captures_single : ∀ (n : Node) (margin : List Char) (item : Json) (ts : List (List Char)),
    n.Recoverable schema reserved true → texts? schema bullet draft compound margin n item = some ts →
    ∃ count, captures schema settings draft.now n item =
        List.replicate count (.mk thisName (.value item) 0) ∧
      (thisName ∈ n.names → 0 < count) ∧ (0 < count → item.isText = true)
  | .variable v, margin, item, ts, ⟨hthis, _, h⟩, ht => by
    rw [texts?] at ht
    have hname : v.name = thisName := hthis.mpr rfl
    obtain ⟨hid, hplain⟩ := h.resolve_left fun h => absurd h.1 (by decide)
    obtain ⟨value, w, hvalue, _, htold⟩ := told_of_texts (Or.inr hplain) ht
    have hitem : item = value := by
      rw [field?, if_pos hname, Option.filter_eq_some_iff] at hvalue
      exact Option.some.inj hvalue.1
    subst hitem
    have htext := isText_of_told htold
    refine ⟨1, ?_, fun _ => Nat.one_pos, fun _ => htext⟩
    rw [captures, hvalue, hname, Variable.told, hid]
    rfl
  | .leaf l, margin, item, ts, _, _ => by
    refine ⟨0, ?_, fun h => by simp [Node.names] at h, fun h => absurd h (by decide)⟩
    rw [captures]
    · rfl
    all_goals simp
  | .markup frame children, margin, item, ts, h, ht => by
    rw [texts?] at ht
    obtain ⟨ws, hws, _⟩ := Option.map_eq_some_iff.mp ht
    rw [captures, Node.names]
    exact captures_singleAll children _ item ws h hws
  | .within _ _ _, _, _, _, h, _ => absurd h.1 (by decide)
  | .list _ _ _ _, _, _, _, h, _ => absurd h.1 (by decide)
  | .clause _ _ _ _ _, _, _, _, h, _ => absurd h.1 (by decide)
  | .enumVariable _, _, _, _, h, _ => h.elim
  | .formula _, _, _, _, h, _ => h.elim
  | .conditional _ _ _ _, _, _, _, h, _ => h.elim
  | .optional _ _ _ _, _, _, _, h, _ => h.elim
  | .join _ _ _ _, _, _, _, h, _ => h.elim
  | .contract _ _, _, _, _, h, _ => h.elim

theorem captures_singleAll : ∀ (ns : List Node) (margin : List Char) (item : Json)
    (ts : List (List Char)), Node.RecoverableAll schema reserved true ns →
    textsAll? schema bullet draft compound margin ns item = some ts →
    ∃ count, capturesAll schema settings draft.now ns item =
        List.replicate count (.mk thisName (.value item) 0) ∧
      (thisName ∈ Node.namesAll ns → 0 < count) ∧ (0 < count → item.isText = true)
  | [], _, _, _, _, _ => ⟨0, rfl, fun h => by simp [Node.namesAll] at h, fun h => absurd h (by decide)⟩
  | n :: rest, margin, item, ts, ⟨hn, hrest⟩, ht => by
    rw [textsAll?] at ht
    obtain ⟨tn, htn, ht⟩ := Option.bind_eq_some_iff.mp ht
    obtain ⟨tm, htm, _⟩ := Option.map_eq_some_iff.mp ht
    obtain ⟨i, hi, hnames, htext⟩ := captures_single n margin item tn hn htn
    obtain ⟨j, hj, hmore, htext'⟩ := captures_singleAll rest margin item tm hrest htm
    refine ⟨i + j, ?_, fun h => ?_, fun h => ?_⟩
    · rw [capturesAll, hi, hj, List.replicate_append_replicate]
    · rw [Node.namesAll] at h
      rcases List.mem_append.mp h with h | h
      · have := hnames h
        omega
      · have := hmore h
        omega
    · rcases Nat.eq_zero_or_pos i with rfl | hpos
      · exact htext' (by omega)
      · exact htext hpos

end

variable {text : List Char}

theorem run_fold_single {type : Option String} (item : Json) (count k : Nat) :
    (fold text (.ofElement type (List.replicate (count + 1) (.mk thisName (.value item) 0)))).run k =
      .ok (item, k) := by
  have hthis : ∀ found : Option Json, (∀ first ∈ found, first = item) → ∀ count,
      (foldThis text found (List.replicate count (.mk thisName (.value item) 0))).run k =
        .ok (if count = 0 then found else some item, k) := by
    intro found hfound count
    induction count generalizing found with
    | zero =>
      rw [List.replicate_zero, foldThis]
      exact run_pure_eq_ok.mpr ⟨rfl, rfl⟩
    | succ count ih =>
      rw [List.replicate_succ, run_foldThis_cons]
      have hget : found.getD item = item := by
        cases found with
        | none => rfl
        | some first => exact hfound first rfl
      refine ⟨item, k, run_fold_value.mpr ⟨rfl, rfl⟩, fun first h => ?_, ?_⟩
      · rw [hfound first h]
        exact same_self item
      · rw [hget, ih (some item) (fun first h => (Option.some.inj h).symm)]
        cases count <;> rfl
  have hany : (List.replicate (count + 1) (Slot.mk thisName (.value item) 0)).any Slot.isThis = true := by
    simp [List.replicate_succ, Slot.isThis, Slot.name]
  unfold ofElement
  rw [if_pos hany]
  exact run_fold_unwrapped.mpr ⟨some item, hthis none (fun _ h => by cases h) (count + 1), rfl⟩

theorem run_foldItems_map {each : Json → Captured} {made : Json → Nat → Json × Nat} :
    ∀ (items : List Json) (k : Nat), (∀ item ∈ items, ∀ k, (fold text (each item)).run k = .ok (made item k)) →
      (foldItems text (items.map each)).run k = .ok (countItems made items k)
  | [], k, _ => by
    rw [List.map_nil, foldItems]
    rfl
  | item :: rest, k, h => by
    obtain ⟨hitem, hrest⟩ := List.forall_mem_cons.mp h
    exact run_foldItems_cons.mpr ⟨_, _, _, hitem k, run_foldItems_map rest _ hrest, rfl⟩

theorem countItems_self (items : List Json) (k : Nat) :
    countItems (fun item n => (item, n)) items k = (items, k) := by
  induction items with
  | nil => rfl
  | cons item items ih => rw [countItems, ih]

/-- A block in front of others adds its field. -/
theorem run_foldSlots_block {scope w value : Json} {later : List String} {fields : Fields} {name : String}
    {c : Captured} {k m : Nat} (hthis : name ≠ thisName) (hclass : name ≠ "$class")
    (hw : field? scope name = some w) (htext : w.isText = false) (hx : (name :: later).Nodup)
    (hfits : Fits scope (name :: later) fields) (hfold : (fold text c).run k = .ok (value, m)) :
    (foldSlots text fields [.mk name c 0]).run k = .ok (Fields.insertNew name value fields, m) ∧
      Fits scope later (Fields.insertNew name value fields) := by
  refine ⟨(run_foldSlots_cons hthis).mpr ⟨value, m, hfold, fun first hfirst => ?_, rfl⟩, ?_⟩
  · rw [hfits.none List.mem_cons_self hclass hw htext] at hfirst
    cases hfirst
  · exact (hfits.mono (List.subset_cons_self name later)).insert hw (Or.inr ⟨htext, (List.nodup_cons.mp hx).1⟩)

mutual

/-- Folding what a node shows of a record restricts the record to it. -/
theorem run_foldSlots_captures : ∀ (n : Node) (margin : List Char) (scope : Json)
    (ts : List (List Char)) (later : List String) (fields : Fields) (k : Nat),
    n.Recoverable schema ["$class"] false → (n.blocks ++ later).Nodup → n.Refers scope →
    texts? schema bullet draft compound margin n scope = some ts → Fits scope (n.blocks ++ later) fields →
    (foldSlots text fields (captures schema settings draft.now n scope)).run k =
        .ok (n.restrict settings draft.now scope (fields, k)) ∧
      Fits scope later (n.restrict settings draft.now scope (fields, k)).1
  | .variable v, margin, scope, ts, later, fields, k, ⟨hthis, hclass, hv⟩, hx, hrefers, h, hfits => by
    rw [texts?] at h
    have hname : v.name ≠ thisName := fun h => absurd (hthis.mp h) (by decide)
    obtain ⟨value, w, hvalue, _, htold⟩ := told_of_texts (hv.imp (fun h => h.2.1) And.right) h
    have htext := isText_of_told htold
    rw [captures, Node.restrict, hvalue, Option.getD_some, told_eq_of_refers htold hrefers hvalue]
    refine ⟨(run_foldSlots_cons hname).mpr ⟨value, k, run_fold_value.mpr ⟨rfl, rfl⟩,
      hfits.same hclass hvalue htext, rfl⟩, ?_⟩
    exact Fits.insert hfits hvalue (Or.inl ⟨htext, rfl⟩)
  | .within name type children, margin, scope, ts, later, fields, k,
      ⟨_, hthis, hclass, _, hxc, hc⟩, hx,
      hrefers, h, hfits => by
    rw [texts?] at h
    obtain ⟨value, hvalue, h⟩ := Option.bind_eq_some_iff.mp h
    obtain ⟨hw, htext⟩ := field?_of_object? hvalue
    rw [captures, Node.restrict, hvalue, Option.getD_some]
    obtain ⟨hinner, _⟩ := run_foldSlots_capturesAll children margin value ts []
      [("$class", .str (type.getD ""))] k hc (by rwa [List.append_nil]) (hrefers value hvalue) h
      (Fits.ofClass _)
    exact run_foldSlots_block hthis (List.ne_of_not_mem_cons hclass) hw htext hx hfits
      (run_fold_record.mpr ⟨_, _, hinner, rfl, rfl⟩)
  | .list name kind type children, margin, scope, ts, later, fields, k, ⟨_, hthis, hclass, hc⟩, hx,
      hrefers, h, hfits => by
    rw [texts?] at h
    obtain ⟨items, hitems, h⟩ := Option.bind_eq_some_iff.mp h
    have hw := field?_of_array? hitems
    split at h
    · cases h
    · obtain ⟨ws, hws, _⟩ := Option.map_eq_some_iff.mp h
      obtain ⟨_, hall⟩ := Grammar.mapM_eq_some hws
      rw [captures, Node.restrict, hitems, Option.getD_some]
      rcases hc with ⟨⟨record, rfl, hrecord⟩, hxc, hc⟩ | ⟨_, hshown, hc⟩
      · rw [if_neg (names_ne_this_all children hc), Option.getD_some]
        refine run_foldSlots_block hthis (List.ne_of_not_mem_cons hclass) hw rfl hx hfits
          (run_fold_array.mpr ⟨_, run_foldItems_map items k fun item hitem k => ?_, rfl⟩)
        obtain ⟨hinner, _⟩ := run_foldSlots_capturesAll children _ item _ [] [("$class", .str record)] k hc
          (by rwa [List.append_nil]) (hrefers items hitems item hitem) (hall item hitem) (Fits.ofClass _)
        unfold ofElement Grammar.elementType
        rw [any_isThis_capturesAll children item hc, if_neg Bool.false_ne_true, if_pos hrecord]
        exact run_fold_record.mpr ⟨_, _, hinner, rfl, rfl⟩
      · rw [if_pos hshown]
        have hone (item : Json) (hitem : item ∈ items) (k : Nat) :
            (fold text (ofElement (Grammar.elementType schema (type.getD ""))
              (capturesAll schema settings draft.now children item))).run k = .ok (item, k) := by
          obtain ⟨count, hcount, hpos, _⟩ :=
            @captures_singleAll _ settings _ _ _ _ children _ item _ hc (hall item hitem)
          have hpos := hpos hshown
          obtain ⟨count, rfl⟩ : ∃ j, count = j + 1 := ⟨count - 1, by omega⟩
          rw [hcount]
          exact run_fold_single item count k
        have hfold : (foldItems text (items.map fun item =>
            ofElement (Grammar.elementType schema (type.getD ""))
              (capturesAll schema settings draft.now children item))).run k = .ok (items, k) := by
          rw [run_foldItems_map items k hone, countItems_self]
        exact run_foldSlots_block hthis (List.ne_of_not_mem_cons hclass) hw rfl hx hfits
          (run_fold_array.mpr ⟨items, hfold, rfl⟩)
  | .clause name type src condition children, margin, scope, ts, later, fields, k,
      ⟨_, hthis, hclass, _, hxc, hc⟩, hx, hrefers, h, hfits => by
    rw [texts?] at h
    obtain ⟨value, hvalue, h⟩ := Option.bind_eq_some_iff.mp h
    obtain ⟨hw, htext⟩ := field?_of_object? hvalue
    obtain ⟨shown, hshown, h⟩ := Option.bind_eq_some_iff.mp h
    rw [captures, Node.restrict, hvalue, Option.getD_some, hshown]
    cases shown with
    | false =>
      rw [if_neg (by decide), if_neg (by decide)]
      exact ⟨rfl, hfits.mono (List.subset_cons_self name later)⟩
    | true =>
      rw [if_pos rfl] at h
      rw [if_pos rfl, if_pos rfl]
      obtain ⟨ws, hws, _⟩ := Option.map_eq_some_iff.mp h
      obtain ⟨hinner, _⟩ := run_foldSlots_capturesAll children margin value ws []
        [("$class", .str (type.getD ""))] k hc (by rwa [List.append_nil]) (hrefers value hvalue) hws
        (Fits.ofClass _)
      exact run_foldSlots_block hthis (List.ne_of_not_mem_cons hclass) hw htext hx hfits
        (run_fold_record.mpr ⟨_, _, hinner, rfl, rfl⟩)
  | .leaf l, margin, scope, ts, later, fields, k, _, hx, _, _, hfits => by
    rw [captures, Node.restrict]
    · exact ⟨rfl, hfits⟩
    all_goals simp
  | .markup frame children, margin, scope, ts, later, fields, k, hl, hx, hrefers, h, hfits => by
    rw [texts?] at h
    obtain ⟨ws, hws, _⟩ := Option.map_eq_some_iff.mp h
    rw [captures, Node.restrict]
    exact run_foldSlots_capturesAll children _ scope ws later fields k hl hx hrefers hws hfits
  | .enumVariable _, _, _, _, _, _, _, hl, _, _, _, _ => hl.elim
  | .formula _, _, _, _, _, _, _, hl, _, _, _, _ => hl.elim
  | .conditional _ _ _ _, _, _, _, _, _, _, hl, _, _, _, _ => hl.elim
  | .optional _ _ _ _, _, _, _, _, _, _, hl, _, _, _, _ => hl.elim
  | .join _ _ _ _, _, _, _, _, _, _, hl, _, _, _, _ => hl.elim
  | .contract _ _, _, _, _, _, _, _, hl, _, _, _, _ => hl.elim

theorem run_foldSlots_capturesAll : ∀ (ns : List Node) (margin : List Char) (scope : Json)
    (ts : List (List Char)) (later : List String) (fields : Fields) (k : Nat),
    Node.RecoverableAll schema ["$class"] false ns → (Node.blocksAll ns ++ later).Nodup → Node.RefersAll ns scope →
    textsAll? schema bullet draft compound margin ns scope = some ts →
    Fits scope (Node.blocksAll ns ++ later) fields →
    (foldSlots text fields (capturesAll schema settings draft.now ns scope)).run k =
        .ok (Node.restrictAll settings draft.now ns scope (fields, k)) ∧
      Fits scope later (Node.restrictAll settings draft.now ns scope (fields, k)).1
  | [], margin, scope, ts, later, fields, k, _, _, _, _, hfits => ⟨rfl, hfits⟩
  | n :: rest, margin, scope, ts, later, fields, k, ⟨hn, hrest⟩, hx, ⟨href, hrefrest⟩, h, hfits => by
    rw [textsAll?] at h
    obtain ⟨tn, htn, h⟩ := Option.bind_eq_some_iff.mp h
    obtain ⟨tm, htm, _⟩ := Option.map_eq_some_iff.mp h
    rw [Node.blocksAll, List.append_assoc] at hx hfits
    obtain ⟨hnode, hfits⟩ := run_foldSlots_captures n margin scope tn (Node.blocksAll rest ++ later) fields k
      hn hx href htn hfits
    have hxrest := (List.nodup_append.mp hx).2.1
    obtain ⟨hmore, hfits⟩ := run_foldSlots_capturesAll rest margin scope tm later _
      (n.restrict settings draft.now scope (fields, k)).2 hrest hxrest hrefrest htm hfits
    rw [capturesAll, Node.restrictAll]
    exact ⟨run_foldSlots_append hnode hmore, hfits⟩

end

end

namespace Template

/-- The data restricted to what the template shows of it, with classes and identifiers. -/
def restricted (t : Template) (settings : Settings) (now : Instant) (data : Json) (n : Nat) : Json :=
  let shown := Node.restrictAll settings now t.body data ([("$class", .str t.type)], n)
  .obj (Captured.identified (some (t.identifier settings)) shown.1 shown.2).1

/-- The parser of a contract reads from a drafted text the data that the contract shows. -/
theorem parse_recovers {type markup : String} {t : Template} {table : Table}
    (ht : Template.ofMarkup table.schema .contract type markup = .ok t)
    (hr : Node.RecoverableAll table.schema ["$class"] false t.body) (hblocks : (Node.blocksAll t.body).Nodup)
    (hbullet : Text.isBlank table.settings.bullet = false) (hf : table.Faithful)
    (scan : ScanContext) :
    (Node.UnformattedAll t.body → ∃ p, (t.parser scan table).1 = .ok p) ∧
      ∀ (p : TemplateParser) (data : Json) (now : Instant) (s s' : DraftState) (doc : Doc)
        (blanks : List Char) (n : Nat), (t.parser scan table).1 = .ok p →
        Ready table.schema table.settings s → (t.draft data now).run s = (.ok doc, s') →
        Node.RefersAll t.body data → Text.allBlank blanks = true →
        p.parse (render table.settings.bullet [doc] ++ String.ofList blanks) n =
          .ok (t.restricted table.settings now data n) := by
  refine ⟨fun h => parser_of_compiles scan hf (hr.compiles h), ?_⟩
  intro p data now s s' doc blanks n hp hs hdraft hrefers hblanks
  have hkind : t.kind = .contract := (ofMarkup_at ht).1
  have hlegible : Node.LegibleAll t.kind t.body := by
    rw [hkind]
    exact hr.legible hblocks
  obtain ⟨hparse, _⟩ := parse_drafted ht hlegible hbullet hf hp hs hdraft hblanks n
  obtain ⟨ts, hts, _⟩ := texts_of_draft table.settings.bullet hs hdraft
  obtain ⟨hfold, _⟩ := @run_foldSlots_capturesAll _ table.settings ⟨data, now, t.kind⟩ _ _ [] t.body [] data
    ts [] [("$class", .str t.type)] n hr (by rwa [List.append_nil]) hrefers hts (Fits.ofClass _)
  exact hparse _ _ (run_fold_record.mpr ⟨_, _, hfold, rfl, rfl⟩)

end Template

namespace Lease

def schema : Schema :=
  ⟨[.concept "Deposit" [.plain "paid" "Boolean"],
    .concept "Lease" [.plain "deposit" "Deposit", { Property.plain "notes" "String" with array := true },
      { Property.plain "tenant" "Person" with relationship := true }],
    .concept "Person" []]⟩

def markup : String :=
  "\x7b\x7btenant\x7d\x7d\n\n\x7b\x7b#ulist notes\x7d\x7d\n- \x7b\x7bthis\x7d\x7d\n" ++
  "\x7b\x7b/ulist\x7d\x7d\n\n\x7b\x7b#clause deposit condition=\x22paid\x22\x7d\x7d\n" ++
  "\x7b\x7bpaid\x7d\x7d\n\x7b\x7b/clause\x7d\x7d"

def line (v : Variable) : Node := .markup .paragraph [.variable v]

def template : Template :=
  ⟨.contract, "Lease", [line ⟨"tenant", some "Person", none, some "$identifier", []⟩,
    .list "notes" .bullet (some "String") [line ⟨thisName, some "String", none, none, []⟩],
    .clause "deposit" (some "Deposit") none (some "paid")
      [line ⟨"paid", some "Boolean", none, none, []⟩]]⟩

def record : Json :=
  .obj [("deposit", .obj [("paid", .bool true), ("sum", .int 7)]), ("notes", .arr [.str "a"]),
    ("tenant", .str "resource:Person#1")]

def context : ScanContext := ⟨0, ⟨0, 0, 0⟩⟩

def shown : Json :=
  .obj [("$class", .str "Lease"), ("contractId", .str (Identifier.numbered 1)),
    ("deposit", .obj [("$class", .str "Deposit"), ("clauseId", .str (Identifier.numbered 0)),
      ("paid", .bool true)]),
    ("notes", .arr [.str "a"]), ("tenant", .str "resource:Person#1")]

theorem ofMarkup_eq : Template.ofMarkup schema .contract "Lease" markup = .ok template :=
  Template.eq_ok_of_equal (by decide +kernel)

theorem recoverable : Node.RecoverableAll schema ["$class"] false template.body := by
  simp [template, line, Node.RecoverableAll, Node.Recoverable, plainTypes, thisName, Node.blocksAll,
    Node.blocks, Node.namesAll, Node.names]

theorem refers : Node.RefersAll template.body record := by
  simp only [template, line, Node.RefersAll, Node.Refers, Option.isSome_none, and_true]
  refine ⟨fun _ => ⟨"Person", "1", rfl, by decide, ?_⟩, by simp, by simp⟩
  cbv

theorem drafts : ∃ doc s', (template.draft record ⟨0, 0, 0⟩).run ⟨Table.empty schema .standard, 0⟩ =
    (.ok doc, s') :=
  exists_ok_of_isOk (by decide +kernel)

set_option maxRecDepth 100000 in
theorem restricted_eq : template.restricted .standard ⟨0, 0, 0⟩ record 0 = shown := by cbv

/-- Fields that are not shown are left out. -/
theorem parse_recovers_shown : ∃ p doc s',
    (template.parser context (Table.empty schema .standard)).1 = .ok p ∧
    (template.draft record ⟨0, 0, 0⟩).run ⟨Table.empty schema .standard, 0⟩ = (.ok doc, s') ∧
      p.parse (render '-' [doc] ++ String.ofList ['\n']) 0 = .ok shown := by
  obtain ⟨doc, s', hdraft⟩ := drafts
  obtain ⟨hparser, hall⟩ := @Template.parse_recovers _ _ _ (Table.empty schema .standard) ofMarkup_eq
    recoverable (by decide) (by decide) (Table.faithful_empty schema .standard) context
  have hunformatted : Node.UnformattedAll template.body := by
    simp [template, line, Node.UnformattedAll, Node.Unformatted]
  obtain ⟨p, hp⟩ := hparser hunformatted
  have hparse := hall p record ⟨0, 0, 0⟩ _ s' doc ['\n'] 0 hp
    ⟨rfl, rfl, Table.faithful_empty schema .standard⟩ hdraft refers (by decide)
  rw [← restricted_eq]
  exact ⟨p, doc, s', hp, hdraft, hparse⟩

end Lease

namespace Classed

def schema : Schema := ⟨[.concept "Holder" [.plain "$class" "Part"], .concept "Part" [.plain "s" "String"]]⟩

def markup : String := "\x7b\x7b#with $class\x7d\x7d\x7b\x7bs\x7d\x7d\x7b\x7b/with\x7d\x7d"

def template : Template :=
  ⟨.contract, "Holder", [.markup .paragraph [.within "$class" (some "Part")
    [.variable ⟨"s", some "String", none, none, []⟩]]]⟩

def context : ScanContext := ⟨0, ⟨0, 0, 0⟩⟩

def parser : TemplateParser :=
  ⟨context, [], .record "Holder" (some "contractId") (template.grammar schema .standard)⟩

def record : Json := .obj [("$class", .obj [("s", .str "x")])]

set_option maxRecDepth 100000 in
/-- A block that is named for the class shows another value than the class that parsing fills in. -/
theorem parse_recovers_classed :
    Template.ofMarkup schema .contract "Holder" markup = .ok template ∧
      Node.RecoverableAll schema [] false template.body ∧ (Node.blocksAll template.body).Nodup ∧
      Node.UnformattedAll template.body ∧ Node.RefersAll template.body record ∧
      (template.parser context (Table.empty schema .standard)).1 = .ok parser ∧
      (∃ doc s', (template.draft record ⟨0, 0, 0⟩).run ⟨Table.empty schema .standard, 0⟩ = (.ok doc, s') ∧
        render '-' [doc] = "\x22x\x22") ∧
      ∃ e, parser.parse "\x22x\x22" 0 = .error (.inconsistent e) := by
  refine ⟨Template.eq_ok_of_equal (by decide +kernel), ?_, by decide, ?_, ?_, by cbv, ⟨_, _, by cbv, by cbv⟩, _, by cbv⟩
  · simp [template, Node.RecoverableAll, Node.Recoverable, plainTypes, thisName, Node.blocksAll,
      Node.blocks]
  · simp [template, Node.UnformattedAll, Node.Unformatted]
  · simp [template, Node.RefersAll, Node.Refers]

end Classed

end ClauseTemplates
