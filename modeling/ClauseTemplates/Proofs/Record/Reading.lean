import ClauseTemplates.Proofs.Grammar.Compiled
import ClauseTemplates.Proofs.Grammar.Folding
import ClauseTemplates.Proofs.Grammar.Reading
import ClauseTemplates.Proofs.Record.Values

namespace ClauseTemplates

open Json Scan Scanner Fragment Captured Folding

namespace Captured

theorem run_fold_alone {text : List Char} {c : Captured} {start n m : Nat} {v : Json} :
    (fold text (.unwrapped [.mk thisName c start])).run n = .ok (v, m) ↔
      (fold text c).run n = .ok (v, m) := by
  rw [run_fold_unwrapped]
  constructor
  · rintro ⟨found, h, rfl⟩
    obtain ⟨w, k, hw, -, h⟩ := run_foldThis_cons.mp h
    rw [foldThis] at h
    obtain ⟨rfl, rfl⟩ := run_pure_eq_ok.mp h
    exact hw
  · intro h
    refine ⟨some v, run_foldThis_cons.mpr ⟨v, m, h, by simp, ?_⟩, rfl⟩
    rw [foldThis]
    exact run_pure_eq_ok.mpr ⟨rfl, rfl⟩

end Captured

namespace Grammar

variable (schema : Schema)

/-- What reads a value of a type that is shown without a format. -/
def ofType (type : String) : ValueGrammar := ofValue schema ⟨thisName, some type, none, none, []⟩

/-- What reads a value of a type under a name, or the elements of an array in brackets. -/
def ofShown (type : String) (array : Bool) (name : String) : Grammar :=
  let shown (name : String) : Grammar := .seq (.slot name (ofType schema type)) .nothing
  if array then
    .seq (.text ['[']) (.seq
      (.slot name (.items separator false (.element (elementType schema type) (shown thisName))))
      (.seq (.text [']']) .nothing))
  else shown name

/-- What reads an element of an array. -/
def ofMember (type : String) : ValueGrammar :=
  .element (elementType schema type) (ofShown schema type false thisName)

/-- What reads a property behind its name. -/
def ofLabelled (e : String × Property) (name : String) : Grammar :=
  .seq (.text (label e)) (ofShown schema e.2.type e.2.array name)

variable {schema} {kind : TemplateKind} {settings : Settings} {context : ScanContext}
  {records : String → Scanner Char Captured}

theorem ofInlines_boundValue (type : String) (array : Bool) (decorators : List Decorator)
    (name : String) : ofInlines schema kind settings [] (boundValue type array decorators name) =
      ofShown schema type array name := by
  cases array <;> rfl

theorem read?_ofInlines_append (ns ms : List Node) (c : Cursor Char) :
    read? ((ofInlines schema kind settings [] (ns ++ ms)).scanner context records) c =
      (read? ((ofInlines schema kind settings [] ns).scanner context records) c).bind fun x =>
        (read? ((ofInlines schema kind settings [] ms).scanner context records) x.2).map fun y =>
          (x.1 ++ y.1, y.2) := by
  induction ns generalizing c with
  | nil =>
    rw [List.nil_append, ofInlines, read?_nothing, Option.bind_some]
    cases read? ((ofInlines schema kind settings [] ms).scanner context records) c <;> rfl
  | cons n ns ih =>
    rw [List.cons_append, ofInlines, ofInlines, read?_seq, read?_seq]
    cases read? ((ofNode schema kind settings [] n).scanner context records) c with
    | none => rfl
    | some x =>
      rw [Option.bind_some, Option.bind_some, ih]
      cases read? ((ofInlines schema kind settings [] ns).scanner context records) x.2 with
      | none => rfl
      | some y =>
        rw [Option.map_some, Option.bind_some, Option.bind_some]
        dsimp only
        cases read? ((ofInlines schema kind settings [] ms).scanner context records) y.2 with
        | none => rfl
        | some z => simp

theorem read?_ofShown (type name : String) (c : Cursor Char) :
    read? ((ofShown schema type false name).scanner context records) c =
      (read? (valueScanner context records (ofType schema type)) c).map fun x =>
        ([.mk name x.1 c.offset], x.2) := by
  change read? ((seq (slot name (ofType schema type)) nothing).scanner context records) c = _
  rw [read?_seq, read?_slot]
  cases read? (valueScanner context records (ofType schema type)) c with
  | none => rfl
  | some x => rw [Option.map_some, Option.bind_some, read?_nothing]; rfl

theorem read?_ofMember (type : String) (c : Cursor Char) :
    read? (valueScanner context records (ofMember schema type)) c =
      (read? (valueScanner context records (ofType schema type)) c).map fun x =>
        (.unwrapped [.mk thisName x.1 c.offset], x.2) := by
  rw [ofMember, read?_element, read?_ofShown, Option.map_map]
  rfl

theorem read?_ofMember_eq_some {type : String} {c next : Cursor Char} {found : Captured} :
    read? (valueScanner context records (ofMember schema type)) c = some (found, next) ↔
      ∃ d start, found = .unwrapped [.mk thisName d start] ∧
        read? ((ofShown schema type false thisName).scanner context records) c =
          some ([.mk thisName d start], next) := by
  rw [read?_ofMember, read?_ofShown]
  cases read? (valueScanner context records (ofType schema type)) c with
  | none => simp
  | some x => simp [eq_comm]

theorem read?_ofMember_eq_none {type : String} {c : Cursor Char} :
    read? (valueScanner context records (ofMember schema type)) c = none ↔
      read? ((ofShown schema type false thisName).scanner context records) c = none := by
  rw [read?_ofMember, read?_ofShown, Option.map_eq_none_iff, Option.map_eq_none_iff]

theorem read?_ofShown_array (type name : String) (offset : Nat) (rest : List Char) :
    read? ((ofShown schema type true name).scanner context records) ⟨offset, '[' :: rest⟩ =
      (read? (separated (valueScanner context records (ofMember schema type)) (exactly separator)
        false false) ⟨offset + 1, rest⟩).bind fun x =>
          (read? (exactly [']']) x.2).map fun y => ([.mk name (.array x.1) (offset + 1)], y.2) := by
  have hopen : read? ((text ['[']).scanner context records) ⟨offset, '[' :: rest⟩ =
      some ([], ⟨offset + 1, rest⟩) := read?_text_append ['['] rest offset
  have hshown : ofShown schema type true name = .seq (.text ['[']) (.seq
      (.slot name (.items separator false (ofMember schema type))) (.seq (.text [']']) .nothing)) := rfl
  rw [hshown, read?_seq, hopen, Option.bind_some, read?_seq, read?_slot, read?_items]
  cases read? (separated (valueScanner context records (ofMember schema type)) (exactly separator)
      false false) ⟨offset + 1, rest⟩ with
  | none => rfl
  | some x =>
    simp only [Option.map_some, Option.bind_some, read?_seq, read?_text, read?_nothing]
    cases read? (exactly [']']) x.2 <;> rfl

/-- Nothing is read by a grammar in front of a text. -/
def Unread (context : ScanContext) (records : String → Scanner Char Captured) (g : Grammar)
    (offset : Nat) (text : List Char) : Prop :=
  read? (g.scanner context records) ⟨offset, text⟩ = none

end Grammar

theorem Fragment.separator_length : separator.length = 2 := rfl

namespace Schema

open Grammar

section

variable (schema : Schema) (context : ScanContext) (records : String → Scanner Char Captured)

mutual

/-- The text of a value is clear in front of what follows it: where a property or an element is
absent, none can be read. -/
inductive Clear : String → Bool → Json → Nat → List Char → Prop
  | scalar {type : String} {value : Json} {offset : Nat} {after : List Char}
      (h : ScalarValue type value) : Clear type false value offset after
  | empty {type : String} {offset : Nat} {after : List Char}
      (h : Unread context records (ofShown schema type false thisName) (offset + 1) (']' :: after)) :
      Clear type true (.arr []) offset after
  | items {type : String} {item : Json} {items : List Json} {offset : Nat} {after : List Char}
      (hitem : Clear type false item (offset + 1)
        (behind separator (items.map (schema.textOf type)) (']' :: after)))
      (hlater : ClearItems type items (offset + 1 + (schema.textOf type item).length) after) :
      Clear type true (.arr (item :: items)) offset after
  | record {type : String} {d : Declaration} {fields : Fields} {offset : Nat} {after : List Char}
      (hd : schema.find? type = some d) (hentries : ClearEntries fields d.entries offset after) :
      Clear type false (.obj fields) offset after

/-- The elements behind the first one. -/
inductive ClearItems : String → List Json → Nat → List Char → Prop
  | nil {type : String} {offset : Nat} {after : List Char} : ClearItems type [] offset after
  | cons {type : String} {item : Json} {items : List Json} {offset : Nat} {after : List Char}
      (hitem : Clear type false item (offset + separator.length)
        (behind separator (items.map (schema.textOf type)) (']' :: after)))
      (hlater : ClearItems type items
        (offset + separator.length + (schema.textOf type item).length) after) :
      ClearItems type (item :: items) offset after

/-- The properties of a record, in the order in which they are shown. -/
inductive ClearEntries : Fields → List (String × Property) → Nat → List Char → Prop
  | nil {fields : Fields} {offset : Nat} {after : List Char} : ClearEntries fields [] offset after
  | present {fields : Fields} {e : String × Property} {es : List (String × Property)} {v : Json}
      {offset : Nat} {after : List Char} (hget : Fields.get? e.2.name fields = some v)
      (hvalue : Clear e.2.type e.2.array v (offset + (label e).length)
        (schema.entriesText fields es ++ after))
      (hlater : ClearEntries fields es (offset + (schema.entryText fields e).length) after) :
      ClearEntries fields (e :: es) offset after
  | absent {fields : Fields} {e : String × Property} {es : List (String × Property)}
      {offset : Nat} {after : List Char} (hget : Fields.get? e.2.name fields = none)
      (hnone : Unread context records (ofLabelled schema e thisName) offset
        (schema.entriesText fields es ++ after))
      (hlater : ClearEntries fields es offset after) : ClearEntries fields (e :: es) offset after

end

/-- A text is read as a value, under a name, up to its end. -/
def Recovers (g : Grammar) (name : String) (w after : List Char) (offset : Nat) (v : Json) : Prop :=
  ∃ c start, read? (g.scanner context records) ⟨offset, w ++ after⟩ =
      some ([.mk name c start], ⟨offset + w.length, after⟩) ∧
    ∀ text n, (fold text c).run n = .ok (v, n)

/-- What is read of a text is a value. -/
def Shows (g : Grammar) (name : String) (w after : List Char) (offset : Nat) (v : Json) : Prop :=
  ∃ c start next text, read? (g.scanner context records) ⟨offset, w ++ after⟩ =
      some ([.mk name c start], next) ∧ FoldsTo text c v

/-- A value is read back exactly under a condition. -/
structure Settles (P : Prop) (g : Grammar) (name : String) (w after : List Char) (offset : Nat)
    (v : Json) : Prop where
  recovers : P → Recovers context records g name w after offset v
  holds : Shows context records g name w after offset v → P

end

variable {schema : Schema} {context : ScanContext} {records : String → Scanner Char Captured}
  {type : String}

theorem behindValue_behind (texts : List (List Char)) (after : List Char) :
    BehindValue (behind separator texts (']' :: after)) := by
  cases texts with
  | nil => rintro c ⟨⟩; exact Or.inr rfl
  | cons text texts => rintro c ⟨⟩; exact Or.inl rfl

theorem itemsText_append (text : List Char) (texts : List (List Char)) (after : List Char) :
    itemsText (text :: texts) ++ after = text ++ behind separator texts after := by
  rw [itemsText, behind, List.append_assoc]

theorem length_le_behind (texts : List (List Char)) (after : List Char) :
    texts.length ≤ (behind separator texts after).length := by
  induction texts with
  | nil => exact Nat.zero_le _
  | cons text texts ih =>
    rw [behind_cons, List.length_append, List.length_append, separator_length, List.length_cons]
    omega

/-- No element can be read behind the last one. -/
theorem stops_closing (after : List Char) :
    Stops (valueScanner context records (ofMember schema type)) (exactly separator)
      (']' :: after) := by
  intro offset between hread
  have hrest := (read?_exactly_some hread).1
  cases hrest

section

variable {items : List Json}
  (hitems : ∀ item ∈ items, ∀ offset after, BehindValue after →
    Settles context records (Clear schema context records type false item offset after)
      (ofShown schema type false thisName) thisName (schema.textOf type item) after offset
      (schema.classed type item))

include hitems

theorem laterItems?_of_clear {offset : Nat} {after : List Char}
    (h : ClearItems schema context records type items offset after) {fuel : Nat}
    (hfuel : items.length ≤ fuel) :
    ∃ cs, laterItems? (valueScanner context records (ofMember schema type)) (exactly separator) fuel
        ⟨offset, behind separator (items.map (schema.textOf type)) (']' :: after)⟩ =
      (cs, ⟨offset + (items.flatMap fun item => separator ++ schema.textOf type item).length,
        ']' :: after⟩) ∧
      ∀ text n, (foldItems text cs).run n = .ok (items.map (schema.classed type), n) := by
  induction items generalizing offset fuel with
  | nil => exact ⟨[], laterItems?_of_stops (stops_closing after) fuel offset, fun _ _ => rfl⟩
  | cons item items ih =>
    obtain ⟨hitem, hitems⟩ := List.forall_mem_cons.mp hitems
    obtain ⟨fuel, rfl⟩ : ∃ n, fuel = n + 1 := ⟨fuel - 1, by simp at hfuel; omega⟩
    cases h with
    | cons hclear hlater =>
      obtain ⟨c, start, hread, hfold⟩ :=
        (hitem _ _ (behindValue_behind _ after)).recovers hclear
      have hmember := read?_ofMember_eq_some.mpr ⟨c, start, rfl, hread⟩
      obtain ⟨cs, hcs, hfolds⟩ := ih hitems hlater (Nat.le_of_succ_le_succ hfuel)
      refine ⟨.unwrapped [.mk thisName c start] :: cs, ?_, fun text n => ?_⟩
      · have hmoves : offset < offset + separator.length + (schema.textOf type item).length := by
          simp [separator_length]
          omega
        rw [List.map_cons, behind_cons, laterItems?_some (read?_exactly separator _ _) hmember hmoves,
          hcs]
        simp only [List.flatMap_cons, List.length_append, Nat.add_assoc]
      · exact run_foldItems_cons.mpr
          ⟨_, _, _, run_fold_alone.mpr (hfold text n), hfolds text n, rfl⟩

theorem clear_of_laterItems? {offset fuel n m : Nat} {after text : List Char} {cs : List Captured}
    {next : Cursor Char}
    (hread : laterItems? (valueScanner context records (ofMember schema type)) (exactly separator)
      fuel ⟨offset, behind separator (items.map (schema.textOf type)) (']' :: after)⟩ = (cs, next))
    (hfold : (foldItems text cs).run n = .ok (items.map (schema.classed type), m)) :
    ClearItems schema context records type items offset after := by
  induction items generalizing offset fuel cs n with
  | nil => exact .nil
  | cons item items ih =>
    obtain ⟨hitem, hitems⟩ := List.forall_mem_cons.mp hitems
    -- As many elements are read as there are, so none of them is missing here.
    have hempty {k : Nat} : (foldItems text []).run k ≠
        .ok ((item :: items).map (schema.classed type), m) := by
      intro h
      cases h
    cases fuel with
    | zero =>
      cases hread
      exact absurd hfold hempty
    | succ fuel =>
      have hsettles := hitem (offset + separator.length) _
        (behindValue_behind (items.map (schema.textOf type)) after)
      rw [List.map_cons, behind_cons] at hread
      cases hmember : read? (valueScanner context records (ofMember schema type))
          ⟨offset + separator.length, schema.textOf type item ++
            behind separator (items.map (schema.textOf type)) (']' :: after)⟩ with
      | none =>
        rw [laterItems?_none (read?_exactly separator _ _) hmember] at hread
        cases hread
        exact absurd hfold hempty
      | some x =>
        obtain ⟨found, mid⟩ := x
        obtain ⟨c, start, rfl, hshown⟩ := read?_ofMember_eq_some.mp hmember
        have hfirst : FoldsTo text c (schema.classed type item) := by
          obtain ⟨more, hcs⟩ := laterItems?_first (read?_exactly separator offset _) hmember fuel
          rw [hread] at hcs
          subst hcs
          obtain ⟨v, k, vs, hv, -, heq⟩ := run_foldItems_cons.mp hfold
          cases heq
          exact ⟨n, k, run_fold_alone.mp hv⟩
        have hclear := hsettles.holds ⟨c, start, mid, text, hshown, hfirst⟩
        obtain ⟨d, start', hread', -⟩ := hsettles.recovers hclear
        cases hshown.symm.trans hread'
        rw [laterItems?_some (read?_exactly separator _ _) hmember (by simp [separator_length]; omega)]
          at hread
        cases hread
        obtain ⟨v, k, vs, -, hvs, heq⟩ := run_foldItems_cons.mp hfold
        cases heq
        exact .cons hclear (ih hitems rfl hvs)

theorem separated_of_clear {offset : Nat} {after : List Char}
    (h : Clear schema context records type true (.arr items) offset after) :
    ∃ cs, read? (separated (valueScanner context records (ofMember schema type)) (exactly separator)
        false false) ⟨offset + 1, itemsText (items.map (schema.textOf type)) ++ (']' :: after)⟩ =
      some (cs, ⟨offset + 1 + (itemsText (items.map (schema.textOf type))).length,
        ']' :: after⟩) ∧
      ∀ text n, (foldItems text cs).run n = .ok (items.map (schema.classed type), n) := by
  cases h with
  | empty hnone =>
    have hmember := read?_ofMember_eq_none.mpr hnone
    refine ⟨[], ?_, fun _ _ => rfl⟩
    rw [read?_separated]
    simp only [List.map_nil, itemsText, List.nil_append, hmember]
    rfl
  | @items _ item items _ _ hitem hlater =>
    obtain ⟨hfirst, hitems⟩ := List.forall_mem_cons.mp hitems
    obtain ⟨c, start, hread, hfold⟩ := (hfirst _ _ (behindValue_behind _ after)).recovers hitem
    have hmember := read?_ofMember_eq_some.mpr ⟨c, start, rfl, hread⟩
    have hfuel := length_le_behind (items.map (schema.textOf type)) (']' :: after)
    rw [List.length_map] at hfuel
    obtain ⟨cs, hcs, hfolds⟩ := laterItems?_of_clear hitems hlater
      (Nat.le_succ_of_le hfuel)
    refine ⟨.unwrapped [.mk thisName c start] :: cs, ?_, fun text n => ?_⟩
    · rw [List.map_cons, itemsText_append, read?_separated, hmember]
      dsimp only
      rw [hcs, itemsText, List.flatMap_map, List.length_append, Nat.add_assoc (offset + 1)]
    · exact run_foldItems_cons.mpr ⟨_, _, _, run_fold_alone.mpr (hfold text n), hfolds text n, rfl⟩

theorem clear_of_separated {offset n m : Nat} {after text : List Char} {cs : List Captured}
    {next : Cursor Char}
    (hread : read? (separated (valueScanner context records (ofMember schema type))
      (exactly separator) false false)
      ⟨offset + 1, itemsText (items.map (schema.textOf type)) ++ (']' :: after)⟩ = some (cs, next))
    (hfold : (foldItems text cs).run n = .ok (items.map (schema.classed type), m)) :
    Clear schema context records type true (.arr items) offset after := by
  rw [read?_separated] at hread
  cases items with
  | nil =>
    cases hmember : read? (valueScanner context records (ofMember schema type))
        ⟨offset + 1, ']' :: after⟩ with
    | none => exact .empty (read?_ofMember_eq_none.mp hmember)
    | some x =>
      simp only [List.map_nil, itemsText, List.nil_append, hmember] at hread
      cases hread
      obtain ⟨v, k, vs, -, -, heq⟩ := run_foldItems_cons.mp hfold
      cases heq
  | cons item items =>
    obtain ⟨hfirst, hitems⟩ := List.forall_mem_cons.mp hitems
    have hsettles := hfirst (offset + 1) _
      (behindValue_behind (items.map (schema.textOf type)) after)
    rw [List.map_cons, itemsText_append] at hread
    cases hmember : read? (valueScanner context records (ofMember schema type))
        ⟨offset + 1, schema.textOf type item ++
          behind separator (items.map (schema.textOf type)) (']' :: after)⟩ with
    | none =>
      rw [hmember] at hread
      cases hread
      cases hfold
    | some x =>
      obtain ⟨found, mid⟩ := x
      obtain ⟨c, start, rfl, hshown⟩ := read?_ofMember_eq_some.mp hmember
      rw [hmember] at hread
      cases hread
      obtain ⟨v, k, vs, hv, hvs, heq⟩ := run_foldItems_cons.mp hfold
      cases heq
      have hclear := hsettles.holds ⟨c, start, mid, text, hshown, n, k, run_fold_alone.mp hv⟩
      obtain ⟨d, start', hread', -⟩ := hsettles.recovers hclear
      cases hshown.symm.trans hread'
      exact .items hclear (clear_of_laterItems? hitems rfl hvs)

/-- An array is read back exactly where each element is, and none behind them. -/
theorem settles_array (name : String) (offset : Nat) (after : List Char) :
    Settles context records (Clear schema context records type true (.arr items) offset after)
      (ofShown schema type true name) name (schema.textOf type (.arr items)) after offset
      (schema.classed type (.arr items)) := by
  have htext : schema.textOf type (.arr items) ++ after =
      '[' :: (itemsText (items.map (schema.textOf type)) ++ (']' :: after)) := by
    simp [textOf, itemTexts_eq]
  have hlength : offset + (schema.textOf type (.arr items)).length =
      offset + 1 + (itemsText (items.map (schema.textOf type))).length + 1 := by
    simp [textOf, itemTexts_eq]
    omega
  have hclassed : schema.classed type (.arr items) = .arr (items.map (schema.classed type)) := by
    rw [classed, classedItems_eq]
  constructor
  · intro h
    obtain ⟨cs, hcs, hfolds⟩ := separated_of_clear hitems h
    refine ⟨.array cs, offset + 1, ?_, fun text n => ?_⟩
    · rw [htext, read?_ofShown_array, hcs, hlength]
      exact congrArg (Option.map fun y => ([Slot.mk name (.array cs) (offset + 1)], y.2))
        (read?_exactly [']'] _ after)
    · rw [hclassed]
      exact run_fold_array.mpr ⟨_, hfolds text n, rfl⟩
  · rintro ⟨c, start, next, text, hread, n, m, hfold⟩
    rw [htext, read?_ofShown_array] at hread
    obtain ⟨⟨cs, mid⟩, hcs, hread⟩ := Option.bind_eq_some_iff.mp hread
    obtain ⟨x, -, heq⟩ := Option.map_eq_some_iff.mp hread
    cases heq
    rw [hclassed] at hfold
    obtain ⟨vs, hvs, heq⟩ := run_fold_array.mp hfold
    cases heq
    exact clear_of_separated hitems hcs hvs

end

end Schema

end ClauseTemplates
