import ClauseTemplates.Proofs.Format.Quoted
import ClauseTemplates.Proofs.Grammar.Reads
import ClauseTemplates.Proofs.Reading.Legible

namespace ClauseTemplates

open Scan Scanner Markdown Drafting

namespace Grammar

variable {scan : ScanContext} {scanner : String → Scanner Char Captured}

theorem ofLeaf_of_level {l : Leaf} {level : Level} (h : l.level? = some level) (margin : List Char) :
    ofLeaf margin l = .text (leafText margin l) := by
  cases l with
  | formula name value => cases h
  | _ => rfl

theorem reads_told {schema : Schema} {v : Variable} {value : Json} {w : List Char}
    (h : Told schema v value w) (rest : List Char) :
    Reads scan scanner (.slot v.name (ofValue schema v)) rest w
      [.mk v.name (.value (v.told value)) 0] := by
  apply ReadsValue.slot
  intro offset
  cases h with
  | @reference value id hid hvalue =>
    refine ⟨.value (v.told value), ?_, rfl⟩
    simp only [ofValue, hid, if_true, valueScanner, read?_bind, ScalarProgram.read?_quotedScanner,
      Option.bind_some, read?_pure, String.ofList_toList, Variable.told, hvalue, Option.getD_some]
  | string s hid hcompile =>
    refine ⟨.value (.str s), ?_, ?_⟩
    · simp only [ofValue, hid, Option.isSome_none, Bool.false_eq_true, if_false, hcompile, read?_scalar,
        ScalarProgram.scanner, read?_bind, ScalarProgram.read?_quotedScanner, Option.bind_some,
        read?_pure, String.ofList_toList, Option.map_some]
    · simp [Captured.unplaced, Variable.told, hid]
  | boolean b hid hcompile =>
    refine ⟨.value (.bool b), ?_, ?_⟩
    · simp only [ofValue, hid, Option.isSome_none, Bool.false_eq_true, if_false, hcompile, read?_scalar,
        ScalarProgram.scanner, read?_orElse, read?_bind]
      cases b with
      | true =>
        rw [if_pos rfl, read?_exactly]
        rfl
      | false =>
        rw [if_neg Bool.false_ne_true, read?_exactly, read?_exactly_none]
        · rfl
        · exact fun h => absurd (List.cons_prefix_cons.mp h).1 (by decide)
    · simp [Captured.unplaced, Variable.told, hid]

theorem reads_mark (bullet : Char) (kind : ListKind) (number : Nat) (rest : List Char) :
    Reads scan scanner (Compiling.listMark bullet kind) rest (itemMark bullet kind number) [] := by
  cases kind with
  | bullet => exact reads_text _ rest
  | ordered =>
    intro offset
    refine ⟨[], ?_, rfl⟩
    have hdigits : ∀ c ∈ Decimal.digitChars number, c.isDigit = true := fun c hc =>
      Nat.isDigit_of_mem_toDigits (by decide) (by decide) hc
    have hpos : ¬ (Decimal.digitChars number).length < 1 := by
      have := List.length_pos_iff.mpr (Nat.toDigits_ne_nil (n := number) (b := 10))
      unfold Decimal.digitChars
      omega
    have htake : (Decimal.digitChars number ++ ('.' :: ' ' :: rest)).takeWhile Char.isDigit =
        Decimal.digitChars number := by
      rw [List.takeWhile_append_of_pos hdigits]
      simp
    have hdrop : (Decimal.digitChars number ++ ('.' :: ' ' :: rest)).dropWhile Char.isDigit =
        ['.', ' '] ++ rest := by
      rw [List.dropWhile_append_of_pos hdigits]
      simp
    have htext : itemMark bullet .ordered number ++ rest =
        Decimal.digitChars number ++ ('.' :: ' ' :: rest) := by
      simp [itemMark, Markdown.orderedMark]
    have hlen : offset + (itemMark bullet .ordered number).length =
        offset + (Decimal.digitChars number).length + ['.', ' '].length := by
      simp only [itemMark, Markdown.orderedMark, List.length_append]
      omega
    rw [Compiling.listMark, Grammar.scanner, skip, orderedMarkScanner, htext, hlen]
    simp only [read?_bind, read?_many_satisfying, htake, hdrop, hpos, if_false, Option.bind_some,
      read?_exactly, read?_pure]

theorem read?_mark_none {bullet : Char} (kind : ListKind) {c : Cursor Char} (h : ¬ IsMark bullet c.rest) :
    read? ((Compiling.listMark bullet kind).scanner scan scanner) c = none := by
  obtain ⟨offset, rest⟩ := c
  cases kind with
  | bullet => exact read?_text_none fun hmark => h (Or.inl hmark)
  | ordered =>
    have hnone : rest.takeWhile Char.isDigit = [] := by
      cases rest with
      | nil => rfl
      | cons d rest =>
        rw [List.takeWhile_cons_of_neg]
        exact fun hd => h (Or.inr ⟨d, rfl, hd⟩)
    rw [Compiling.listMark, Grammar.scanner, skip, orderedMarkScanner]
    simp only [read?_bind, read?_many_satisfying, hnone, List.length_nil, Nat.lt_one_iff, if_true,
      Option.bind_none]

theorem itemText_zipIdx (bullet : Char) (margin : List Char) (kind : ListKind) (number : Nat)
    (items : List (List Char)) : itemText bullet margin kind (newline margin) number items =
      (items.zipIdx number).flatMap fun x => newline margin ++ (itemMark bullet kind x.2 ++ x.1) := by
  induction items generalizing number with
  | nil => rfl
  | cons item items ih => simp [itemText, ih]

theorem unplacedAll_of_forall₂ {shown : ξ → Captured} {xs : List ξ} {captured : List Captured}
    (h : List.Forall₂ (fun x c => c.unplaced = shown x) xs captured) :
    Captured.unplacedAll captured = xs.map shown := by
  induction h with
  | nil => rfl
  | cons h _ ih => rw [Captured.unplacedAll, h, ih, List.map_cons]

section

variable {bullet : Char} {margin rest : List Char} {listKind : ListKind} {body : Grammar}
  {type : Option String}

theorem mark_head (listKind : ListKind) (hbullet : Text.isBlank bullet = false) (number : Nat) (text : List Char) :
    ∃ c after, itemMark bullet listKind number ++ text = c :: after ∧ c ≠ '\n' ∧ c ≠ ' ' := by
  cases listKind with
  | bullet =>
    refine ⟨bullet, _, rfl, ?_, ?_⟩
    · rintro rfl
      exact absurd hbullet (by decide)
    · rintro rfl
      exact absurd hbullet (by decide)
  | ordered =>
    obtain ⟨d, digits, hd, hmark⟩ := orderedMark_head number
    refine ⟨d, digits ++ text, by rw [itemMark, hmark]; rfl, ?_, ?_⟩
    · rintro rfl
      exact absurd hd (by decide)
    · rintro rfl
      exact absurd hd (by decide)

/-- The next item ends the blocks of an item. -/
theorem ends_item (hm : Margin margin) (hbullet : Text.isBlank bullet = false) (number : Nat)
    (text : List Char) : Ends bullet (margin ++ itemIndent listKind)
      (newline margin ++ (itemMark bullet listKind number ++ text)) := by
  obtain ⟨c, after, heq, hline, hblank⟩ := mark_head listKind hbullet number text
  rw [heq]
  refine ends_newline hm hline (fun more _ hhead => ?_) fun hnil => ?_
  · cases listKind <;> exact hblank (Option.some.inj hhead).symm
  · cases listKind <;> cases hnil

theorem Follows.item (h : Follows bullet margin rest) :
    Ends bullet (margin ++ itemIndent listKind) rest :=
  h.inside (margin_item listKind) (by cases listKind <;> decide)

/-- The items of a list are read up to what stands behind the list. -/
theorem reads_items (type : Option String) (hm : Margin margin) (hbullet : Text.isBlank bullet = false)
    (hrest : Follows bullet margin rest) {items : List (List Char × List Slot)} (hne : items ≠ [])
    (hitem : ∀ item ∈ items, ∀ rest, Ends bullet (margin ++ itemIndent listKind) rest →
      Reads scan scanner body rest item.1 item.2) :
    ReadsValue scan scanner
      (.items (newline margin) true
        (.element type (.seq (Compiling.listMark bullet listKind) body))) rest
      (itemText bullet margin listKind [] 1 (items.map Prod.fst))
      (.array (items.map fun item => .ofElement type item.2)) := by
  intro offset
  cases items with
  | nil => exact absurd rfl hne
  | cons first items =>
  let value := ValueGrammar.element type (.seq (Compiling.listMark bullet listKind) body)
  let text (x : (List Char × List Slot) × Nat) := itemMark bullet listKind x.2 ++ x.1.1
  let xs := items.zipIdx 2
  have hstops : Stops (valueScanner scan scanner value) (exactly (newline margin)) rest := by
    intro offset between hsep
    have hmore := (read?_exactly_some hsep).1
    have hmark : ¬ IsMark bullet between.rest :=
      hrest.items [] between.rest margin_nil (by rw [List.append_nil]; exact hmore)
    rw [read?_element, read?_seq_none (read?_mark_none listKind hmark)]
    rfl
  have hbehind (later : List ((List Char × List Slot) × Nat)) :
      Ends bullet (margin ++ itemIndent listKind) (behind (newline margin) (later.map text) rest) := by
    cases later with
    | nil => exact Follows.item hrest
    | cons y later =>
      rw [List.map_cons, behind_cons, List.append_assoc]
      exact ends_item hm hbullet y.2 _
  have hread : ∀ before y later, (first, 1) :: xs = before ++ y :: later → ∀ offset, ∃ a,
      read? (valueScanner scan scanner value)
        ⟨offset, text y ++ behind (newline margin) (later.map text) rest⟩ =
        some (a, ⟨offset + (text y).length, behind (newline margin) (later.map text) rest⟩) ∧
      a.unplaced = .ofElement type y.1.2 := by
    intro before y later heq offset
    have hmem : y.1 ∈ first :: items := by
      have hy : y ∈ (first, 1) :: xs := heq ▸ List.mem_append_right _ List.mem_cons_self
      rcases List.mem_cons.mp hy with rfl | hy
      · exact List.mem_cons_self
      · exact List.mem_cons_of_mem _ (List.fst_mem_of_mem_zipIdx hy)
    exact (((reads_mark bullet listKind y.2 _).seq (hitem y.1 hmem _ (hbehind later))).element type)
      offset
  obtain ⟨captured, hcaptured, hall⟩ := read?_separated_of_items
    hstops text (fun x a => a.unplaced = .ofElement type x.1.2) (first, 1) xs
    (fun x => List.cons_ne_nil _ _) true hread offset
  have htext : itemText bullet margin listKind [] 1 ((first :: items).map Prod.fst) =
      text (first, 1) ++ xs.flatMap fun y => newline margin ++ text y := by
    rw [List.map_cons, itemText, itemText_zipIdx, List.zipIdx_map, List.flatMap_map]
    simp [text, xs]
  refine ⟨.array captured, ?_, ?_⟩
  · rw [read?_items, htext]
    have hbehind : behind (newline margin) (xs.map text) rest =
        (xs.flatMap fun y => newline margin ++ text y) ++ rest := by
      rw [behind, List.flatMap_map]
    rw [hbehind, ← List.append_assoc] at hcaptured
    rw [hcaptured]
    rfl
  · have hitems : xs.map (fun x => Captured.ofElement type x.1.2) =
        items.map fun item => Captured.ofElement type item.2 := by
      conv_rhs => rw [← List.zipIdx_map_fst 2 items, List.map_map]
      rfl
    rw [Captured.unplaced, unplacedAll_of_forall₂ hall, List.map_cons, hitems, List.map_cons]

end

/-- What can stand in front: one of these clauses, or no clause. -/
def Opening (names : List String) (x : List Char) : Prop :=
  Shut x ∨ ∃ name ∈ names, ∃ src y, x = clauseOpen name src ++ y

/-- The name of a clause ends before something that is no part of a name. -/
theorem clauseOpen_eq (name : String) (src : Option String) : ∃ c tail, Markup.isNamePart c = false ∧
    clauseOpen name src = clauseMark ++ (name.toList ++ c :: tail) := by
  cases src with
  | none => exact ⟨'\x7d', ['\x7d'], by decide, by simp [clauseOpen]⟩
  | some src =>
    refine ⟨' ', ['s', 'r', 'c', '=', '\x22'] ++ src.toList ++ ['\x22', '\x7d', '\x7d'], by decide, ?_⟩
    simp [clauseOpen, sourceMark]

theorem eq_of_open {name other : String} {src src' : Option String} {y : List Char}
    (hname : name.toList.all Markup.isNamePart = true)
    (hother : other.toList.all Markup.isNamePart = true)
    (h : clauseOpen name src <+: clauseOpen other src' ++ y) : name = other := by
  obtain ⟨c, tail, hc, hopen⟩ := clauseOpen_eq name src
  obtain ⟨c', tail', hc', hopen'⟩ := clauseOpen_eq other src'
  obtain ⟨z, hz⟩ := h
  simp only [hopen, hopen', List.append_assoc, List.append_cancel_left_eq, List.cons_append] at hz
  have htake {cs : List Char} {d : Char} {after : List Char} (hall : cs.all Markup.isNamePart = true)
      (hd : Markup.isNamePart d = false) : (cs ++ d :: after).takeWhile Markup.isNamePart = cs := by
    rw [List.takeWhile_append_of_pos (List.all_eq_true.mp hall), List.takeWhile_cons_of_neg (by simp [hd]),
      List.append_nil]
  have heq := congrArg (List.takeWhile Markup.isNamePart) hz
  rw [htake hname hc, htake hother hc'] at heq
  exact String.toList_inj.mp heq

theorem clauseMark_open (name : String) (src : Option String) : clauseMark <+: clauseOpen name src := by
  obtain ⟨c, tail, _, h⟩ := clauseOpen_eq name src
  exact h ▸ List.prefix_append _ _

namespace Opening

variable {names : List String} {x : List Char}

theorem not_open (h : Opening names x) {name : String} {src : Option String} (hname : name ∉ names)
    (hpart : name.toList.all Markup.isNamePart = true)
    (hparts : ∀ name ∈ names, name.toList.all Markup.isNamePart = true) :
    ¬ clauseOpen name src <+: x := by
  intro hopen
  rcases h with hshut | ⟨other, hother, src', y, rfl⟩
  · exact hshut 0 ((clauseMark_open name src).trans hopen)
  · exact hname (eq_of_open hpart (hparts other hother) hopen ▸ hother)

theorem not_indented (h : Opening names x) (k : Nat) (hk : 0 < k) :
    ¬ List.replicate k ' ' ++ clauseMark <+: x := by
  intro hmark
  rcases h with hshut | ⟨other, _, src, y, rfl⟩
  · exact hshut k hmark
  · obtain ⟨k, rfl⟩ : ∃ j, k = j + 1 := ⟨k - 1, by omega⟩
    exact absurd (List.cons_prefix_cons.mp hmark).1 (by decide)

end Opening

section

variable {schema : Schema} {draft : DraftContext}
  {compound : List Char → List Node → Json → Option (List (List Char))} {bullet : Char}

theorem texts_clause {margin : List Char} {name : String} {type src condition : Option String}
    {children : List Node} {scope : Json} {ts : List (List Char)} (hkind : draft.kind = .contract)
    (h : texts? schema bullet draft compound margin (.clause name type src condition children) scope =
      some ts) : ∃ value, object? scope name = some value ∧
      (isShown? draft.now condition value = some false ∧ ts = [] ∨
        isShown? draft.now condition value = some true ∧ ∃ ws,
          textsAll? schema bullet draft compound margin children value = some ws ∧
          ts = [regionText margin name src ws]) := by
  rw [texts?] at h
  obtain ⟨value, hvalue, h⟩ := Option.bind_eq_some_iff.mp h
  obtain ⟨shown, hshown, h⟩ := Option.bind_eq_some_iff.mp h
  refine ⟨value, hvalue, ?_⟩
  cases shown with
  | false =>
    cases h
    exact Or.inl ⟨hshown, rfl⟩
  | true =>
    rw [if_pos rfl] at h
    obtain ⟨ws, hws, hts⟩ := Option.map_eq_some_iff.mp h
    rw [hkind] at hts
    exact Or.inr ⟨hshown, ws, hws, hts.symm⟩

/-- A block has one text, unless it is a clause whose condition fails. -/
theorem texts_block {n : Node} {margin : List Char} {scope : Json} {ts : List (List Char)}
    (hl : n.Legible draft.kind) (ha : n.At .block)
    (h : texts? schema bullet draft compound margin n scope = some ts) :
    (∃ w, ts = [w]) ∨ ts = [] ∧ ∃ name type src code children,
      n = .clause name type src (some code) children ∧
      ∀ settings, captures schema settings draft.now n scope = [] := by
  cases n with
  | list name listKind type children =>
    rw [texts?] at h
    obtain ⟨items, _, h⟩ := Option.bind_eq_some_iff.mp h
    split at h
    · cases h
    · obtain ⟨texts, _, rfl⟩ := Option.map_eq_some_iff.mp h
      exact Or.inl ⟨_, rfl⟩
  | leaf l =>
    rw [texts?] at h
    cases h
    exact Or.inl ⟨_, rfl⟩
  | markup frame children =>
    rw [texts?] at h
    obtain ⟨ws, _, rfl⟩ := Option.map_eq_some_iff.mp h
    exact Or.inl ⟨_, rfl⟩
  | clause name type src condition children =>
    obtain ⟨value, hvalue, ⟨hshown, rfl⟩ | ⟨_, ws, _, rfl⟩⟩ := texts_clause hl.1 h
    · cases condition with
      | none => cases hshown
      | some code =>
        refine Or.inr ⟨rfl, name, type, src, code, children, rfl, fun settings => ?_⟩
        simp [captures, hvalue, hshown]
    · exact Or.inl ⟨_, rfl⟩
  | «variable» v => exact absurd ha (by simp [Node.At])
  | within name type children => exact absurd ha.1 (by decide)
  | enumVariable _ => exact hl.elim
  | formula _ => exact hl.elim
  | conditional _ _ _ _ => exact hl.elim
  | optional _ _ _ _ => exact hl.elim
  | join _ _ _ _ => exact hl.elim
  | contract _ _ => exact hl.elim

theorem namePart_of_at {ns : List Node} (ha : Node.EachAt .block ns) :
    ∀ name ∈ ns.filterMap Node.clauseName?, name.toList.all Markup.isNamePart = true := by
  intro name hname
  obtain ⟨n, hn, hclause⟩ := List.mem_filterMap.mp hname
  have hat := Node.eachAt_iff.mp ha n hn
  cases n with
  | clause other type src condition children =>
    cases hclause
    exact hat.2.1
  | _ => cases hclause

theorem shut_laterText (margin : List Char) {rest : List Char} (ts : List (List Char)) (h : Shut rest) :
    Shut (laterText margin ts ++ rest) := by
  cases ts with
  | nil => exact h
  | cons t ts => exact shut_of_head (by decide) (by decide) _

theorem opening_blocks (hbullet : Text.isBlank bullet = false) {margin rest : List Char} {scope : Json}
    (hrest : Shut rest) : ∀ (ns : List Node) (ts : List (List Char)),
    Node.LegibleAll draft.kind ns → Node.EachAt .block ns →
    textsAll? schema bullet draft compound margin ns scope = some ts →
    Opening (ns.filterMap Node.clauseName?) (blockText margin ts ++ rest)
  | [], ts, _, _, h => by
    rw [textsAll?] at h
    cases h
    exact Or.inl hrest
  | n :: more, ts, ⟨hn, _, hmore⟩, ⟨ha, hamore⟩, h => by
    rw [textsAll?] at h
    obtain ⟨tn, htn, h⟩ := Option.bind_eq_some_iff.mp h
    obtain ⟨tm, htm, rfl⟩ := Option.map_eq_some_iff.mp h
    rcases texts_block hn ha htn with ⟨w, rfl⟩ | ⟨rfl, name, type, src, code, children, rfl, _⟩
    · rw [List.singleton_append, blockText, List.append_assoc]
      cases hclause : n.clauseName? with
      | none =>
        have hshut := shut_block hbullet hn ha hclause htn (shut_laterText margin tm hrest)
        rw [List.flatten_singleton] at hshut
        exact Or.inl hshut
      | some name =>
        cases n with
        | clause other type src condition children =>
          cases hclause
          obtain ⟨value, _, ⟨_, hw⟩ | ⟨_, ws, _, hw⟩⟩ := texts_clause hn.1 htn
          · cases hw
          · cases hw
            refine Or.inr ⟨name, by simp [Node.clauseName?], src,
              newline margin ++ (blockText margin ws ++ regionEnd margin ws) ++
                (laterText margin tm ++ rest), ?_⟩
            rw [regionText_eq, List.append_assoc]
        | _ => cases hclause
    · rcases opening_blocks hbullet hrest more tm hmore hamore htm with hshut | ⟨other, hother, hopen⟩
      · exact Or.inl hshut
      · refine Or.inr ⟨other, ?_, hopen⟩
        rw [List.filterMap_cons]
        exact List.mem_cons_of_mem _ hother

end

end Grammar

end ClauseTemplates
