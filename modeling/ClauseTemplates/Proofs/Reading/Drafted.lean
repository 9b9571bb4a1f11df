import ClauseTemplates.Proofs.Markup.Level
import ClauseTemplates.Proofs.Parsing.Captured
import ClauseTemplates.Proofs.Reading.Pieces

namespace ClauseTemplates

open Scan Markdown Drafting

namespace Grammar

/-- What can stand behind a node at a level. -/
def Behind (bullet : Char) (margin rest : List Char) : Level → Prop
  | .inline => True
  | .item => Ends bullet margin rest
  | .block => Follows bullet margin rest

theorem mapM_eq_some {α β : Type} {f : α → Option (List β)} {items : List α} {ws : List (List β)}
    (h : items.mapM f = some ws) :
    ws = items.map (fun item => (f item).getD []) ∧ ∀ item ∈ items, f item = some ((f item).getD []) := by
  induction items generalizing ws with
  | nil =>
    cases h
    exact ⟨rfl, by simp⟩
  | cons item items ih =>
    rw [List.mapM_cons] at h
    obtain ⟨w, hw, h⟩ := Option.bind_eq_some_iff.mp h
    obtain ⟨more, hmore, h⟩ := Option.bind_eq_some_iff.mp h
    cases h
    obtain ⟨rfl, hall⟩ := ih hmore
    refine ⟨by simp [hw], fun i hi => ?_⟩
    rcases List.mem_cons.mp hi with rfl | hi
    · rw [hw]
      rfl
    · exact hall i hi

section

variable {schema : Schema} {settings : Settings} {scan : ScanContext}
  {scanner : String → Scanner Char Captured} {draft : DraftContext}
  {compound : List Char → List Node → Json → Option (List (List Char))}

theorem read?_clause_none {name : String} {type src condition : Option String} {children : List Node}
    {margin : List Char} (hkind : draft.kind = .contract) {c : Cursor Char}
    (h : ¬ clauseOpen name src <+: c.rest) :
    Scanner.read? ((ofNode schema draft.kind settings margin
      (.clause name type src condition children)).scanner scan scanner) c = none := by
  rw [ofNode, if_pos hkind, read?_slot, read?_record, ofRegion, concat, read?_seq_none (read?_text_none h)]
  rfl

/-- One more block in front: it is read before the others, or left out with its separator. -/
theorem reads_assemble {margin rest : List Char} {n : Node} {more : List Node} {scope : Json}
    {tn tm : List (List Char)} {shown : List Slot} (hl : n.Legible draft.kind) (ha : n.At .block)
    (hname : ∀ name ∈ n.clauseName?, name ∉ more.filterMap Node.clauseName?)
    (hopening : Opening (more.filterMap Node.clauseName?) (blockText margin tm ++ rest))
    (hparts : ∀ name ∈ more.filterMap Node.clauseName?, name.toList.all Markup.isNamePart = true)
    (hrest : Ends settings.bullet margin rest)
    (htn : texts? schema settings.bullet draft compound margin n scope = some tn)
    (hn : tn ≠ [] → Reads scan scanner (ofNode schema draft.kind settings margin n)
      (laterText margin tm ++ rest) tn.flatten (captures schema settings draft.now n scope))
    (hfirst : Reads scan scanner (Compiling.assemble (blockSeparator margin)
      (ofEach schema draft.kind settings margin more)).1 rest (blockText margin tm) shown)
    (hlater : Reads scan scanner (Compiling.assemble (blockSeparator margin)
      (ofEach schema draft.kind settings margin more)).2 rest (laterText margin tm) shown) :
    Reads scan scanner (Compiling.assemble (blockSeparator margin)
        (ofEach schema draft.kind settings margin (n :: more))).1 rest (blockText margin (tn ++ tm))
        (captures schema settings draft.now n scope ++ shown) ∧
      Reads scan scanner (Compiling.assemble (blockSeparator margin)
        (ofEach schema draft.kind settings margin (n :: more))).2 rest (laterText margin (tn ++ tm))
        (captures schema settings draft.now n scope ++ shown) := by
  rw [ofEach]
  rcases texts_block hl ha htn with ⟨w, rfl⟩ | ⟨rfl, name, type, src, code, children, rfl, hnone⟩
  · have hw := hn (by simp)
    rw [List.flatten_singleton] at hw
    have hblocks : laterText margin ([w] ++ tm) = blockSeparator margin ++ (w ++ laterText margin tm) := by
      simp [laterText]
    rw [hblocks]
    exact reads_present _ hw hlater
  · have hnot : ¬ clauseOpen name src <+: blockText margin tm ++ rest :=
      hopening.not_open (hname name rfl) ha.2.1 hparts
    rw [show Compiling.isElidable draft.kind (.clause name type src (some code) children) = true
      from rfl, hnone settings]
    refine ⟨reads_absent_first (fun offset => ?_) hfirst,
      reads_absent_later (fun next hnext => ?_) hlater⟩
    · exact read?_seq_none (read?_clause_none hl.1 hnot)
    · refine read?_seq_none (read?_clause_none hl.1 fun hopen => ?_)
      cases tm with
      | nil =>
        have hmark := (clauseMark_open name src).trans hopen
        have hpass : rest = blockSeparator margin ++ next.rest := hnext
        refine hrest.region ?_
        rw [hpass, List.prefix_append_right_inj]
        exact hmark
      | cons t tm =>
        simp only [laterText, List.nil_append, List.flatMap_cons, List.append_assoc,
          List.append_cancel_left_eq] at hnext
        refine hnot ?_
        rw [blockText, List.append_assoc]
        exact hnext ▸ hopen

theorem ends_close {bullet : Char} {margin : List Char} (hm : Margin margin) (blocks : List (List Char))
    (rest : List Char) : Ends bullet margin (regionEnd margin blocks ++ rest) := by
  have hmark (rest : List Char) : ¬ IsMark bullet (clauseClose ++ rest) :=
    not_isMark (fun h => absurd (List.cons_prefix_cons.mp (List.cons_prefix_cons.mp h).2).1 (by decide))
      (by decide)
  cases blocks with
  | cons block blocks =>
    have hends : Ends bullet (margin ++ [])
        (newline margin ++ '\x7b' :: (clauseClose.tail ++ rest)) := by
      refine ends_newline hm (by decide) (fun more hmore hhead => ?_) fun _ => hmark rest
      rcases hmore.eq_or_eq (List.mem_of_mem_head? hhead) with h | h <;> exact absurd h (by decide)
    · rw [List.append_nil] at hends
      have heq : regionEnd margin (block :: blocks) ++ rest =
          newline margin ++ '\x7b' :: (clauseClose.tail ++ rest) := by simp [regionEnd, clauseClose]
      rw [heq]
      exact hends
  | nil =>
    have hline {x : List Char} : ¬ '\n' :: x <+: clauseClose ++ rest :=
      fun h => absurd (List.cons_prefix_cons.mp h).1 (by decide)
    refine ⟨⟨fun k hk => ?_, ?_, fun _ _ _ => hline⟩, hline⟩
    · cases k with
      | zero =>
        have h := (List.cons_prefix_cons.mp hk).2
        have h := (List.cons_prefix_cons.mp h).2
        exact absurd (List.cons_prefix_cons.mp h).1 (by decide)
      | succ k => exact absurd (List.cons_prefix_cons.mp hk).1 (by decide)
    · rintro inner more _ heq
      cases heq

theorem Opening.follows {bullet : Char} {margin rest : List Char} {names : List String}
    {ts : List (List Char)} (hm : Margin margin) (hbullet : Text.isBlank bullet = false)
    (hrest : Ends bullet margin rest) (h : Opening names (blockText margin ts ++ rest)) :
    Follows bullet margin (laterText margin ts ++ rest) := by
  cases ts with
  | nil => exact hrest.toFollows
  | cons t ts =>
    rw [laterText, List.flatMap_cons, List.append_assoc, List.append_assoc]
    refine follows_separator hm hbullet fun k hk => ?_
    have hindented := h.not_indented k hk
    rwa [blockText, List.append_assoc] at hindented

/-- Blocks without a text show nothing. -/
theorem capturesAll_nil {margin : List Char} {scope : Json} : ∀ (ns : List Node),
    Node.LegibleAll draft.kind ns → Node.EachAt .block ns →
    textsAll? schema settings.bullet draft compound margin ns scope = some [] →
    capturesAll schema settings draft.now ns scope = []
  | [], _, _, _ => rfl
  | n :: more, ⟨hn, _, hmore⟩, ⟨ha, hamore⟩, h => by
    rw [textsAll?] at h
    obtain ⟨tn, htn, h⟩ := Option.bind_eq_some_iff.mp h
    obtain ⟨tm, htm, hnil⟩ := Option.map_eq_some_iff.mp h
    obtain ⟨rfl, rfl⟩ := List.append_eq_nil_iff.mp hnil
    rcases texts_block hn ha htn with ⟨w, hw⟩ | ⟨_, _, _, _, _, _, _, hnone⟩
    · cases hw
    · rw [capturesAll, hnone settings, capturesAll_nil more hmore hamore htm]
      rfl

theorem texts_item {n : Node} {margin : List Char} {scope : Json} {ts : List (List Char)}
    (ha : n.At .item) (h : texts? schema settings.bullet draft compound margin n scope = some ts) :
    ∃ w, ts = [w] := by
  cases n with
  | markup frame children =>
    rw [texts?] at h
    obtain ⟨ws, _, rfl⟩ := Option.map_eq_some_iff.mp h
    exact ⟨_, rfl⟩
  | leaf l =>
    rw [texts?] at h
    cases h
    exact ⟨_, rfl⟩
  | _ => simp [Node.At] at ha

mutual

/-- The text of a node is read before what can stand behind it, and shows the slots of the node. -/
theorem reads_node (hbullet : Text.isBlank settings.bullet = false) : ∀ (n : Node) (level : Level)
    (margin : List Char) (scope : Json) (ts : List (List Char)) (rest : List Char), Margin margin → n.Legible draft.kind → n.At level →
    texts? schema settings.bullet draft compound margin n scope = some ts →
    Behind settings.bullet margin rest level → (level = .block → ts ≠ []) →
    Reads scan scanner (ofNode schema draft.kind settings margin n) rest ts.flatten
      (captures schema settings draft.now n scope)
  | .variable v, level, margin, scope, ts, rest, _, hl, _, h, _, _ => by
    rw [texts?] at h
    obtain ⟨value, w, hvalue, rfl, htold⟩ := told_of_texts hl h
    rw [ofNode, captures, List.flatten_singleton, hvalue, Option.getD_some]
    exact reads_told htold rest
  | .within name type children, level, margin, scope, ts, rest, hm, hl, ha, h, _, _ => by
    rw [texts?] at h
    obtain ⟨value, hvalue, h⟩ := Option.bind_eq_some_iff.mp h
    rw [ofNode, captures, hvalue, Option.getD_some]
    have hinner := reads_inlines hbullet children margin value ts rest hm hl ha.2 h
    exact (hinner.record _ none).slot name
  | .list name listKind type children, level, margin, scope, ts, rest, hm, hl, ⟨hlevel, hc⟩, h, hrest, _ => by
    subst hlevel
    rw [texts?] at h
    obtain ⟨data, hdata, h⟩ := Option.bind_eq_some_iff.mp h
    split at h
    · cases h
    · rename_i hne
      obtain ⟨ws, hws, rfl⟩ := Option.map_eq_some_iff.mp h
      obtain ⟨rfl, hall⟩ := mapM_eq_some hws
      let inner := margin ++ itemIndent listKind
      let item (value : Json) : List Char × List Slot :=
        (blockText inner ((textsAll? schema settings.bullet draft compound inner children value).getD []),
          capturesAll schema settings draft.now children value)
      have hitems : ∀ x ∈ data.map item, ∀ rest, Ends settings.bullet inner rest →
          Reads scan scanner (ofBlocks inner (ofEach schema draft.kind settings inner children)) rest
            x.1 x.2 := by
        intro x hx rest hends
        obtain ⟨value, hvalue, rfl⟩ := List.mem_map.mp hx
        exact (reads_blocks hbullet children inner value _ rest (hm.append (margin_item listKind)) hl hc
          (hall value hvalue) hends).1
      have hread := reads_items (elementType schema (type.getD "")) hm hbullet hrest
        (by simpa [List.isEmpty_iff] using hne) hitems
      rw [ofNode, captures, hdata, Option.getD_some, List.flatten_singleton]
      simp only [List.map_map, Function.comp_def, item] at hread ⊢
      exact hread.slot name
  | .clause name type src condition children, level, margin, scope, ts, rest, hm, hl, ⟨hlevel, _, hc⟩, h, _, hne => by
    obtain ⟨value, hvalue, ⟨_, hts⟩ | ⟨hshown, ws, hws, rfl⟩⟩ := texts_clause hl.1 h
    · exact absurd hts (hne hlevel)
    · have hbody := (reads_blocks hbullet children margin value ws (regionEnd margin ws ++ rest) hm hl.2 hc hws
        (ends_close hm ws rest)).1
      rw [ofNode, captures, if_pos hl.1, hvalue, Option.getD_some, List.flatten_singleton]
      rw [if_pos hshown]
      have hshown (hnil : ws = []) : capturesAll schema settings draft.now children value = [] :=
        capturesAll_nil children hl.2 hc (hnil ▸ hws)
      exact ((reads_region name src hbody hshown).record _ _).slot name
  | .leaf l, level, margin, scope, ts, rest, _, _, ha, h, _, _ => by
    rw [texts?] at h
    cases h
    rw [ofNode, ofLeaf_of_level ha, captures, List.flatten_singleton]
    exact reads_text _ rest
    all_goals simp
  | .markup frame children, level, margin, scope, ts, rest, hm, hl, ⟨inner, ha, hc⟩, h, hrest, _ => by
    rw [texts?] at h
    obtain ⟨ws, hws, rfl⟩ := Option.map_eq_some_iff.mp h
    rw [captures, List.flatten_singleton]
    cases frame with
    | paragraph =>
      cases ha
      rw [ofNode]
      exact reads_inlines hbullet children margin scope ws rest hm hl hc hws
    | heading depth =>
      cases ha
      rw [ofNode]
      exact (reads_inlines hbullet children margin scope ws rest hm hl hc hws).after _
    | emph =>
      cases ha
      rw [ofNode]
      exact (reads_inlines hbullet children margin scope ws _ hm hl hc hws).enclosed ['*'] ['*']
    | strong =>
      cases ha
      rw [ofNode]
      exact (reads_inlines hbullet children margin scope ws _ hm hl hc hws).enclosed ['*', '*'] ['*', '*']
    | item =>
      cases ha
      rw [ofNode]
      exact (reads_blocks hbullet children margin scope ws rest hm hl hc hws hrest).1
    | blockQuote =>
      cases ha
      rw [ofNode]
      exact (reads_blocks hbullet children (margin ++ quoteMark) scope ws rest (hm.append margin_quote) hl hc hws
        (hrest.inside margin_quote (by decide))).1.after _
    | list listKind start =>
      cases ha
      rw [ofNode]
      exact reads_staticItems hbullet listKind children [] start.toNat margin scope ws rest hm hl hc hws hrest
    | document data => cases ha
    | clause name src data => cases ha
  | .enumVariable _, _, _, _, _, _, _, hl, _, _, _, _ => hl.elim
  | .formula _, _, _, _, _, _, _, hl, _, _, _, _ => hl.elim
  | .conditional _ _ _ _, _, _, _, _, _, _, hl, _, _, _, _ => hl.elim
  | .optional _ _ _ _, _, _, _, _, _, _, hl, _, _, _, _ => hl.elim
  | .join _ _ _ _, _, _, _, _, _, _, hl, _, _, _, _ => hl.elim
  | .contract _ _, _, _, _, _, _, _, hl, _, _, _, _ => hl.elim

theorem reads_inlines (hbullet : Text.isBlank settings.bullet = false) : ∀ (ns : List Node)
    (margin : List Char) (scope : Json) (ts : List (List Char)) (rest : List Char), Margin margin → Node.LegibleAll draft.kind ns →
    Node.EachAt .inline ns →
    textsAll? schema settings.bullet draft compound margin ns scope = some ts →
    Reads scan scanner (ofInlines schema draft.kind settings margin ns) rest ts.flatten
      (capturesAll schema settings draft.now ns scope)
  | [], margin, scope, ts, rest, _, _, _, h => by
    rw [textsAll?] at h
    cases h
    exact reads_nothing rest
  | n :: more, margin, scope, ts, rest, hm, ⟨hn, _, hmore⟩, ⟨ha, hamore⟩, h => by
    rw [textsAll?] at h
    obtain ⟨tn, htn, h⟩ := Option.bind_eq_some_iff.mp h
    obtain ⟨tm, htm, rfl⟩ := Option.map_eq_some_iff.mp h
    rw [ofInlines, capturesAll, List.flatten_append]
    exact (reads_node hbullet n .inline margin scope tn _ hm hn ha htn trivial (by simp)).seq
      (reads_inlines hbullet more margin scope tm rest hm hmore hamore htm)

theorem reads_blocks (hbullet : Text.isBlank settings.bullet = false) : ∀ (ns : List Node)
    (margin : List Char) (scope : Json) (ts : List (List Char)) (rest : List Char), Margin margin → Node.LegibleAll draft.kind ns →
    Node.EachAt .block ns →
    textsAll? schema settings.bullet draft compound margin ns scope = some ts →
    Ends settings.bullet margin rest →
    Reads scan scanner (Compiling.assemble (blockSeparator margin)
        (ofEach schema draft.kind settings margin ns)).1 rest (blockText margin ts)
        (capturesAll schema settings draft.now ns scope) ∧
      Reads scan scanner (Compiling.assemble (blockSeparator margin)
        (ofEach schema draft.kind settings margin ns)).2 rest (laterText margin ts)
        (capturesAll schema settings draft.now ns scope)
  | [], margin, scope, ts, rest, _, _, _, h, _ => by
    rw [textsAll?] at h
    cases h
    exact ⟨reads_nothing rest, reads_nothing rest⟩
  | n :: more, margin, scope, ts, rest, hm, ⟨hn, hname, hmore⟩, ⟨ha, hamore⟩, h, hrest => by
    rw [textsAll?] at h
    obtain ⟨tn, htn, h⟩ := Option.bind_eq_some_iff.mp h
    obtain ⟨tm, htm, rfl⟩ := Option.map_eq_some_iff.mp h
    obtain ⟨hfirst, hlater⟩ := reads_blocks hbullet more margin scope tm rest hm hmore hamore htm hrest
    have hopening := opening_blocks hbullet hrest.shut more tm hmore hamore htm
    exact reads_assemble hn ha hname hopening (namePart_of_at hamore) hrest htn
      (fun hne => reads_node hbullet n .block margin scope tn _ hm hn ha htn
        (hopening.follows hm hbullet hrest) fun _ => hne) hfirst hlater

theorem reads_staticItems (hbullet : Text.isBlank settings.bullet = false) (listKind : ListKind) :
    ∀ (ns : List Node) (lead : List Char) (number : Nat) (margin : List Char) (scope : Json) (ts : List (List Char)) (rest : List Char), Margin margin →
    Node.LegibleAll draft.kind ns → Node.EachAt .item ns →
    textsAll? schema settings.bullet draft compound (margin ++ itemIndent listKind) ns scope = some ts →
    Follows settings.bullet margin rest →
    Reads scan scanner (ofItems schema draft.kind settings margin listKind lead number ns) rest
      (itemText settings.bullet margin listKind lead number ts)
      (capturesAll schema settings draft.now ns scope)
  | [], lead, number, margin, scope, ts, rest, _, _, _, h, _ => by
    rw [textsAll?] at h
    cases h
    exact reads_nothing rest
  | n :: more, lead, number, margin, scope, ts, rest, hm, ⟨hn, _, hmore⟩, ⟨ha, hamore⟩, h, hrest => by
    rw [textsAll?] at h
    obtain ⟨tn, htn, h⟩ := Option.bind_eq_some_iff.mp h
    obtain ⟨tm, htm, rfl⟩ := Option.map_eq_some_iff.mp h
    obtain ⟨w, rfl⟩ := texts_item ha htn
    have hbehind : Ends settings.bullet (margin ++ itemIndent listKind)
        (itemText settings.bullet margin listKind (newline margin) (number + 1) tm ++ rest) := by
      cases tm with
      | nil => exact Follows.item hrest
      | cons t tm =>
        rw [itemText, List.append_assoc, List.append_assoc, List.append_assoc]
        exact ends_item hm hbullet (number + 1) _
    have hitem := reads_node hbullet n .item (margin ++ itemIndent listKind) scope [w] _
      (hm.append (margin_item listKind)) hn ha htn hbehind (by simp)
    have hlater := reads_staticItems hbullet listKind more (newline margin) (number + 1) margin scope tm rest hm
      hmore hamore htm hrest
    have hnothing := hlater.seq (reads_nothing rest)
    rw [List.append_nil, List.append_nil] at hnothing
    rw [List.flatten_singleton] at hitem
    rw [ofItems, List.singleton_append, itemText, capturesAll, List.append_assoc]
    exact (hitem.seq hnothing).after _

end

end

end Grammar

/-- A drafted text with blanks behind it is captured: the parser makes a record of what the text shows
of the data, or finds that it does not agree. -/
theorem Template.parse_drafted {schema : Schema} {kind : TemplateKind} {type markup : String}
    {t : Template} {scan : ScanContext} {table : Table} {p : TemplateParser}
    (ht : Template.ofMarkup schema kind type markup = .ok t) (hl : Node.LegibleAll t.kind t.body)
    (hbullet : Text.isBlank table.settings.bullet = false) (hf : table.Faithful)
    (hp : (t.parser scan table).1 = .ok p) {data : Json} {now : Instant} {s s' : DraftState} {doc : Doc}
    (hs : Ready table.schema table.settings s) (hdraft : (t.draft data now).run s = (.ok doc, s'))
    {blanks : List Char} (hblanks : Text.allBlank blanks = true) (n : Nat) :
    (∀ value m, (Captured.fold [] (.record t.type (some (t.identifier table.settings))
        (capturesAll table.schema table.settings now t.body data))).run n = .ok (value, m) →
      p.parse (render table.settings.bullet [doc] ++ String.ofList blanks) n = .ok value) ∧
    ((∀ value m, (Captured.fold [] (.record t.type (some (t.identifier table.settings))
        (capturesAll table.schema table.settings now t.body data))).run n ≠ .ok (value, m)) →
      ∃ e, p.parse (render table.settings.bullet [doc] ++ String.ofList blanks) n =
        .error (.inconsistent e)) := by
  obtain ⟨ts, hts, hw⟩ := Template.texts_of_draft table.settings.bullet hs hdraft
  rw [render_singleton, ← String.ofList_append, hw]
  have hread (scanner : String → Scanner Char Captured) :
      Grammar.Reads scan scanner (t.grammar table.schema table.settings) blanks (blockText [] ts)
        (capturesAll table.schema table.settings now t.body data) :=
    (@Grammar.reads_blocks _ _ _ _ ⟨data, now, t.kind⟩ _ hbullet t.body [] data ts blanks margin_nil hl
      (Template.ofMarkup_at ht).2.2 hts (ends_blank hbullet hblanks)).1
  exact Template.parse_of_reads hf hp hblanks (fun compound _ => hread compound) n

end ClauseTemplates
