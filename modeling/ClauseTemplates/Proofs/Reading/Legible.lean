import ClauseTemplates.Proofs.Document.Margins
import ClauseTemplates.Proofs.Drafting.Texts
import ClauseTemplates.Proofs.Redraft.Slots
import ClauseTemplates.Proofs.Template.Level

namespace ClauseTemplates

open Markdown

namespace Node

def clauseName? : Node → Option String
  | .clause name _ _ _ _ => some name
  | _ => none

mutual

/-- What the texts of a node show can be told from them: there are no alternatives, no results and no
values that could go on with what stands behind. Clauses stand between marks only in contracts, and
those side by side differ in their names. -/
def Legible (kind : TemplateKind) : Node → Prop
  | .variable v => v.identifiedBy.isSome ∨ ∃ type ∈ plainTypes, v.type = some type
  | .within _ _ children => LegibleAll kind children
  | .list _ _ _ children => LegibleAll kind children
  | .clause _ _ _ _ children => kind = .contract ∧ LegibleAll kind children
  | .leaf _ => True
  | .markup _ children => LegibleAll kind children
  | _ => False

def LegibleAll (kind : TemplateKind) : List Node → Prop
  | [] => True
  | n :: rest => n.Legible kind ∧ (∀ name ∈ n.clauseName?, name ∉ rest.filterMap clauseName?) ∧
    LegibleAll kind rest

end

end Node

/-- The value that the text of a variable tells. -/
def Variable.told (v : Variable) (value : Json) : Json :=
  if v.identifiedBy.isSome then
    .str (resourceUri (v.type.getD "") ((value.string?.bind resourceId?).getD ""))
  else value

namespace Drafting

section

variable (schema : Schema) (settings : Settings) (now : Instant)

mutual

/-- The slots that the texts of legible nodes show of a value. -/
def captures : Node → Json → List Slot
  | .variable v, scope => [.mk v.name (.value (v.told ((field? scope v.name).getD .null))) 0]
  | .within name type children, scope =>
    [.mk name (.record (type.getD "") none
      (capturesAll children ((object? scope name).getD .null))) 0]
  | .list name _ type children, scope =>
    [.mk name (.array (((array? scope name).getD []).map fun item =>
      .ofElement (Grammar.elementType schema (type.getD "")) (capturesAll children item))) 0]
  | .clause name type _ condition children, scope =>
    let value := (object? scope name).getD .null
    if isShown? now condition value = some true then
      [.mk name (.record (type.getD "") (some settings.clauseIdentifier)
        (capturesAll children value)) 0]
    else []
  | .markup _ children, scope => capturesAll children scope
  | _, _ => []

def capturesAll : List Node → Json → List Slot
  | [], _ => []
  | n :: rest, scope => captures n scope ++ capturesAll rest scope

end

end

/-- How a value is written whose text tells it. -/
inductive Told (schema : Schema) (v : Variable) : Json → List Char → Prop
  | reference {value : Json} {id : String} : v.identifiedBy.isSome →
      value.string?.bind resourceId? = some id → Told schema v value (Text.quoted id.toList)
  | string (s : String) : v.identifiedBy = none →
      Entry.compile schema ⟨v.type.getD "", v.format⟩ = .ok (.scalar .string) →
      Told schema v (.str s) (Text.quoted s.toList)
  | boolean (b : Bool) : v.identifiedBy = none →
      Entry.compile schema ⟨v.type.getD "", v.format⟩ = .ok (.scalar .boolean) →
      Told schema v (.bool b) (if b then "true".toList else "false".toList)

section

variable {schema : Schema} {kind : TemplateKind} {bullet : Char} {context : DraftContext}
  {compound : List Char → List Node → Json → Option (List (List Char))}

theorem told_of_texts {margin : List Char} {v : Variable} {scope : Json} {ts : List (List Char)}
    (hv : v.identifiedBy.isSome ∨ ∃ type ∈ plainTypes, v.type = some type)
    (h : variableTexts? schema compound margin v scope = some ts) :
    ∃ value w, field? scope v.name = some value ∧ ts = [w] ∧ Told schema v value w := by
  unfold variableTexts? at h
  obtain ⟨type, htype, h⟩ := Option.bind_eq_some_iff.mp h
  obtain ⟨value, hvalue, h⟩ := Option.bind_eq_some_iff.mp h
  cases hid : v.identifiedBy with
  | some field =>
    rw [hid, if_pos (show (some field).isSome = true from rfl)] at h
    obtain ⟨id, hid', rfl⟩ := Option.map_eq_some_iff.mp h
    exact ⟨value, _, hvalue, rfl, .reference (by rw [hid]; rfl) hid'⟩
  | none =>
    rw [hid] at h hv
    obtain ⟨found, hplain, hfound⟩ := hv.resolve_left (by simp)
    obtain rfl : type = found := Option.some.inj (htype.symm.trans hfound)
    simp only [Option.isSome_none, Bool.false_eq_true, if_false] at h
    obtain ⟨e, hcompile, h⟩ := Option.bind_eq_some_iff.mp h
    have hcompile : Entry.compile schema ⟨v.type.getD "", v.format⟩ = .ok e := by
      rw [htype, Option.getD_some]
      cases hc : Entry.compile schema ⟨type, v.format⟩ with
      | error _ =>
        rw [hc] at hcompile
        cases hcompile
      | ok found =>
        rw [hc] at hcompile
        cases hcompile
        rfl
    have hplain' : v.type.getD "" ∈ plainTypes := by rwa [htype]
    rcases (Entry.compile_plain hplain' hcompile).2 with rfl | rfl
    · obtain ⟨w, hw, rfl⟩ := Option.map_eq_some_iff.mp h
      cases value with
      | str s =>
        cases hw
        exact ⟨_, _, hvalue, rfl, .string s hid hcompile⟩
      | _ => cases hw
    · obtain ⟨w, hw, rfl⟩ := Option.map_eq_some_iff.mp h
      cases value with
      | bool b =>
        refine ⟨_, _, hvalue, rfl, ?_⟩
        have hw : w = if b then "true".toList else "false".toList := by
          cases b <;> cases hw <;> rfl
        rw [hw]
        exact .boolean b hid hcompile
      | _ => cases hw

theorem shut_blank {rest : List Char} (h : Shut rest) : Shut (' ' :: rest) := by
  intro k hk
  cases k with
  | zero => exact absurd (List.cons_prefix_cons.mp hk).1 (by decide)
  | succ k => exact h k (List.cons_prefix_cons.mp hk).2

theorem shut_escaped {rest : List Char} (h : Shut rest) (cs : List Char) :
    Shut (Text.escaped cs ++ rest) := by
  induction cs with
  | nil => exact h
  | cons c cs ih =>
    unfold Text.escaped
    split
    · exact shut_of_head (by decide) (by decide) _
    · rename_i hc
      by_cases hblank : c = ' '
      · subst hblank
        exact shut_blank ih
      · refine shut_of_head hblank ?_ _
        rintro rfl
        exact hc (by decide)

theorem orderedMark_head (number : Nat) :
    ∃ d digits, d.isDigit = true ∧ orderedMark number = d :: digits := by
  unfold orderedMark Decimal.digitChars
  cases hd : Nat.toDigits 10 number with
  | nil => exact absurd hd Nat.toDigits_ne_nil
  | cons d digits =>
    have hdigit := Nat.isDigit_of_mem_toDigits (by decide) (by decide) (hd ▸ List.mem_cons_self)
    exact ⟨d, digits ++ ['.', ' '], hdigit, rfl⟩

/-- No item begins like a clause region. -/
theorem shut_mark (hbullet : Text.isBlank bullet = false) (listKind : ListKind) (number : Nat)
    (rest : List Char) : Shut (itemMark bullet listKind number ++ rest) := by
  cases listKind with
  | bullet =>
    intro k hk
    cases k with
    | zero => exact absurd (List.cons_prefix_cons.mp (List.cons_prefix_cons.mp hk).2).1 (by decide)
    | succ k =>
      rw [← (List.cons_prefix_cons.mp hk).1] at hbullet
      exact absurd hbullet (by decide)
  | ordered =>
    obtain ⟨d, digits, hd, hmark⟩ := orderedMark_head number
    rw [itemMark, hmark]
    refine shut_of_head ?_ ?_ _
    · rintro rfl
      exact absurd hd (by decide)
    · rintro rfl
      exact absurd hd (by decide)

theorem shut_told {v : Variable} {value : Json} {w : List Char} (h : Told schema v value w)
    (rest : List Char) : Shut (w ++ rest) := by
  cases h with
  | reference _ _ => exact shut_of_head (by decide) (by decide) _
  | string s _ _ => exact shut_of_head (by decide) (by decide) _
  | boolean b _ _ =>
    cases b
    · exact shut_of_head (by decide) (by decide) _
    · exact shut_of_head (by decide) (by decide) _

theorem shut_leaf {l : Leaf} {level : Level} (h : l.level? = some level) (margin : List Char)
    {rest : List Char} (hrest : Shut rest) : Shut (leafText margin l ++ rest) := by
  cases l with
  | text t => exact shut_escaped hrest t.toList
  | fragment t => cases h
  | formula name value => cases h
  | codeBlock info t => exact shut_of_head (by decide) (by decide) _
  | thematicBreak => exact shut_of_head (by decide) (by decide) _
  | code t => exact shut_of_head (by decide) (by decide) _
  | softbreak => exact shut_of_head (by decide) (by decide) _
  | linebreak => exact shut_of_head (by decide) (by decide) _

mutual

/-- No clause region begins inside a line. -/
theorem shut_texts : ∀ (n : Node) (margin : List Char) (scope : Json) (ts : List (List Char))
    (rest : List Char), n.Legible kind → n.At .inline →
    texts? schema bullet context compound margin n scope = some ts → Shut rest →
    Shut (ts.flatten ++ rest)
  | .variable v, margin, scope, ts, rest, hl, _, h, _ => by
    rw [texts?] at h
    obtain ⟨value, w, _, rfl, htold⟩ := told_of_texts hl h
    rw [List.flatten_singleton]
    exact shut_told htold rest
  | .within name type children, margin, scope, ts, rest, hl, ha, h, hrest => by
    rw [texts?] at h
    obtain ⟨value, _, h⟩ := Option.bind_eq_some_iff.mp h
    exact shut_textsAll children margin value ts rest hl ha.2 h hrest
  | .leaf l, margin, scope, ts, rest, _, ha, h, hrest => by
    rw [texts?] at h
    cases h
    rw [List.flatten_singleton]
    exact shut_leaf ha margin hrest
  | .markup frame children, margin, scope, ts, rest, hl, ⟨inner, ha, hc⟩, h, hrest => by
    rw [texts?] at h
    obtain ⟨ws, _, rfl⟩ := Option.map_eq_some_iff.mp h
    rw [List.flatten_singleton]
    cases frame with
    | emph => exact shut_of_head (by decide) (by decide) _
    | strong => exact shut_of_head (by decide) (by decide) _
    | _ => cases ha
  | .list _ _ _ _, _, _, _, _, _, ha, _, _ => absurd ha.1 (by decide)
  | .clause _ _ _ _ _, _, _, _, _, _, ha, _, _ => absurd ha.1 (by decide)
  | .enumVariable _, _, _, _, _, hl, _, _, _ => hl.elim
  | .formula _, _, _, _, _, hl, _, _, _ => hl.elim
  | .conditional _ _ _ _, _, _, _, _, hl, _, _, _ => hl.elim
  | .optional _ _ _ _, _, _, _, _, hl, _, _, _ => hl.elim
  | .join _ _ _ _, _, _, _, _, hl, _, _, _ => hl.elim
  | .contract _ _, _, _, _, _, hl, _, _, _ => hl.elim

theorem shut_textsAll : ∀ (ns : List Node) (margin : List Char) (scope : Json)
    (ts : List (List Char)) (rest : List Char), Node.LegibleAll kind ns → Node.EachAt .inline ns →
    textsAll? schema bullet context compound margin ns scope = some ts → Shut rest →
    Shut (ts.flatten ++ rest)
  | [], margin, scope, ts, rest, _, _, h, hrest => by
    rw [textsAll?] at h
    cases h
    exact hrest
  | n :: more, margin, scope, ts, rest, ⟨hn, _, hmore⟩, ⟨ha, hamore⟩, h, hrest => by
    rw [textsAll?] at h
    obtain ⟨tn, htn, h⟩ := Option.bind_eq_some_iff.mp h
    obtain ⟨tm, htm, rfl⟩ := Option.map_eq_some_iff.mp h
    rw [List.flatten_append, List.append_assoc]
    have hlater := shut_textsAll more margin scope tm rest hmore hamore htm hrest
    exact shut_texts n margin scope tn _ hn ha htn hlater

end

/-- Of the blocks only clauses begin like clause regions. -/
theorem shut_block (hbullet : Text.isBlank bullet = false) {n : Node} {margin : List Char}
    {scope : Json} {ts : List (List Char)} {rest : List Char} (hl : n.Legible kind)
    (ha : n.At .block) (hname : n.clauseName? = none)
    (h : texts? schema bullet context compound margin n scope = some ts) (hrest : Shut rest) :
    Shut (ts.flatten ++ rest) := by
  cases n with
  | list name listKind type children =>
    rw [texts?] at h
    obtain ⟨items, _, h⟩ := Option.bind_eq_some_iff.mp h
    split at h
    · cases h
    · rename_i hne
      obtain ⟨texts, htexts, rfl⟩ := Option.map_eq_some_iff.mp h
      rw [List.flatten_singleton]
      cases items with
      | nil => exact absurd rfl hne
      | cons item items =>
        rw [List.mapM_cons] at htexts
        obtain ⟨t, _, htexts⟩ := Option.bind_eq_some_iff.mp htexts
        obtain ⟨later, _, htexts⟩ := Option.bind_eq_some_iff.mp htexts
        cases htexts
        rw [List.map_cons, itemText, List.nil_append, List.append_assoc, List.append_assoc]
        exact shut_mark hbullet listKind 1 _
  | leaf l =>
    rw [texts?] at h
    cases h
    rw [List.flatten_singleton]
    exact shut_leaf ha margin hrest
  | markup frame children =>
    obtain ⟨inner, ha, hc⟩ := ha
    rw [texts?] at h
    obtain ⟨ws, hws, rfl⟩ := Option.map_eq_some_iff.mp h
    rw [List.flatten_singleton]
    cases frame with
    | paragraph =>
      cases ha
      exact shut_textsAll children margin scope ws rest hl hc hws hrest
    | heading level =>
      cases ha
      have hinner := shut_textsAll children margin scope ws rest hl hc hws hrest
      rw [frameText, headingMark]
      cases level.toNat with
      | zero => exact shut_blank hinner
      | succ k => exact shut_of_head (by decide) (by decide) _
    | blockQuote => exact shut_of_head (by decide) (by decide) _
    | list listKind start =>
      cases ws with
      | nil => exact hrest
      | cons w ws =>
        rw [frameText, itemText, List.nil_append, List.append_assoc, List.append_assoc]
        exact shut_mark hbullet listKind start.toNat _
    | document data => cases ha
    | item => cases ha
    | clause name src data => cases ha
    | emph => cases ha
    | strong => cases ha
  | clause name type src condition children => cases hname
  | «variable» v => exact absurd ha (by simp [Node.At])
  | within name type children => exact absurd ha.1 (by decide)
  | enumVariable _ => exact hl.elim
  | formula _ => exact hl.elim
  | conditional _ _ _ _ => exact hl.elim
  | optional _ _ _ _ => exact hl.elim
  | join _ _ _ _ => exact hl.elim
  | contract _ _ => exact hl.elim

end

end Drafting

end ClauseTemplates
