import Mathlib
import ClauseTemplates.Proofs.Reading.Coherent
import ClauseTemplates.Proofs.Reading.Drafted
import ClauseTemplates.Proofs.Template.Equality

namespace ClauseTemplates

open Markdown Drafting

mutual

/-- What is legible without clauses is legible in every template. -/
theorem Node.Legible.of_clause (kind : TemplateKind) : ∀ {n : Node}, n.Legible .clause → n.Legible kind
  | .variable _, h => h
  | .within _ _ _, h => Node.LegibleAll.of_clause kind h
  | .list _ _ _ _, h => Node.LegibleAll.of_clause kind h
  | .clause _ _ _ _ _, h => absurd h.1 (by decide)
  | .leaf _, _ => trivial
  | .markup _ _, h => Node.LegibleAll.of_clause kind h
  | .enumVariable _, h => h.elim
  | .formula _, h => h.elim
  | .conditional _ _ _ _, h => h.elim
  | .optional _ _ _ _, h => h.elim
  | .join _ _ _ _, h => h.elim
  | .contract _ _, h => h.elim

theorem Node.LegibleAll.of_clause (kind : TemplateKind) : ∀ {ns : List Node},
    Node.LegibleAll .clause ns → Node.LegibleAll kind ns
  | [], _ => trivial
  | _ :: _, ⟨hn, hname, hrest⟩ =>
    ⟨Node.Legible.of_clause kind hn, hname, Node.LegibleAll.of_clause kind hrest⟩

end

namespace Drafting

variable {schema : Schema} {settings : Settings} {draft : DraftContext} {bullet : Char}
  {compound : List Char → List Node → Json → Option (List (List Char))}

theorem exact_told {v : Variable} {value : Json} {w : List Char} (h : Told schema v value w) :
    (v.told value).Exact := by
  cases h with
  | reference hid _ =>
    rw [Variable.told, if_pos hid]
    exact trivial
  | string s hid _ =>
    rw [Variable.told, hid]
    exact trivial
  | boolean b hid _ =>
    rw [Variable.told, hid]
    exact trivial

mutual

/-- Without clauses no identifiers are shown. -/
theorem plain_captures : ∀ (n : Node) (margin : List Char) (scope : Json) (ts : List (List Char)),
    n.Legible .clause → texts? schema bullet draft compound margin n scope = some ts →
    Slot.PlainAll (captures schema settings draft.now n scope)
  | .variable v, margin, scope, ts, hl, h => by
    rw [texts?] at h
    obtain ⟨value, w, hvalue, _, htold⟩ := told_of_texts hl h
    rw [captures, hvalue, Option.getD_some]
    exact ⟨exact_told htold, trivial⟩
  | .within name type children, margin, scope, ts, hl, h => by
    rw [texts?] at h
    obtain ⟨value, hvalue, h⟩ := Option.bind_eq_some_iff.mp h
    rw [captures, hvalue, Option.getD_some]
    exact ⟨⟨rfl, plain_capturesAll children margin value ts hl h⟩, trivial⟩
  | .list name listKind type children, margin, scope, ts, hl, h => by
    rw [texts?] at h
    obtain ⟨items, hitems, h⟩ := Option.bind_eq_some_iff.mp h
    split at h
    · cases h
    · obtain ⟨ws, hws, _⟩ := Option.map_eq_some_iff.mp h
      obtain ⟨_, hall⟩ := Grammar.mapM_eq_some hws
      rw [captures, hitems, Option.getD_some]
      refine ⟨?_, trivial⟩
      have hplain (data : List Json) (hdata : ∀ item ∈ data, item ∈ items) :
          Captured.PlainAll (data.map fun item =>
            .ofElement (Grammar.elementType schema (type.getD ""))
              (capturesAll schema settings draft.now children item)) := by
        induction data with
        | nil => exact trivial
        | cons item data ih =>
          obtain ⟨hitem, hdata⟩ := List.forall_mem_cons.mp hdata
          exact ⟨Captured.plain_ofElement
            (plain_capturesAll children _ item _ hl (hall item hitem)), ih hdata⟩
      exact hplain items fun _ h => h
  | .clause _ _ _ _ _, _, _, _, hl, _ => absurd hl.1 (by decide)
  | .leaf l, _, _, _, _, _ => by
    rw [captures]
    · exact trivial
    all_goals simp
  | .markup frame children, margin, scope, ts, hl, h => by
    rw [texts?] at h
    obtain ⟨ws, hws, _⟩ := Option.map_eq_some_iff.mp h
    rw [captures]
    exact plain_capturesAll children _ scope ws hl hws
  | .enumVariable _, _, _, _, hl, _ => hl.elim
  | .formula _, _, _, _, hl, _ => hl.elim
  | .conditional _ _ _ _, _, _, _, hl, _ => hl.elim
  | .optional _ _ _ _, _, _, _, hl, _ => hl.elim
  | .join _ _ _ _, _, _, _, hl, _ => hl.elim
  | .contract _ _, _, _, _, hl, _ => hl.elim

theorem plain_capturesAll : ∀ (ns : List Node) (margin : List Char) (scope : Json)
    (ts : List (List Char)), Node.LegibleAll .clause ns →
    textsAll? schema bullet draft compound margin ns scope = some ts →
    Slot.PlainAll (capturesAll schema settings draft.now ns scope)
  | [], _, _, _, _, _ => trivial
  | n :: more, margin, scope, ts, ⟨hn, _, hmore⟩, h => by
    rw [textsAll?] at h
    obtain ⟨tn, htn, h⟩ := Option.bind_eq_some_iff.mp h
    obtain ⟨tm, htm, _⟩ := Option.map_eq_some_iff.mp h
    rw [capturesAll]
    exact Slot.plainAll_append.mpr
      ⟨plain_captures n margin scope tn hn htn, plain_capturesAll more margin scope tm hmore htm⟩

end

end Drafting

namespace Template

/-- What the text of a template shows of a record, before values are compared. -/
def shown (t : Template) (schema : Schema) (settings : Settings) (now : Instant) (data : Json) :
    Captured :=
  .record t.type (some (t.identifier settings)) (capturesAll schema settings now t.body data)

/-- A drafted text is inconsistent exactly where the template shows two different things under one
name, and is accepted otherwise. -/
theorem parse_inconsistent_iff {schema : Schema} {kind : TemplateKind} {type markup : String}
    {t : Template} {scan : ScanContext} {table : Table} {p : TemplateParser}
    (ht : Template.ofMarkup schema kind type markup = .ok t) (hl : Node.LegibleAll .clause t.body)
    (hbullet : Text.isBlank table.settings.bullet = false) (hf : table.Faithful)
    (hp : (t.parser scan table).1 = .ok p) {data : Json} {now : Instant} {s s' : DraftState} {doc : Doc}
    (hs : Ready table.schema table.settings s) (hdraft : (t.draft data now).run s = (.ok doc, s'))
    {blanks : List Char} (hblanks : Text.allBlank blanks = true) (n : Nat) :
    ((∃ e, p.parse (render table.settings.bullet [doc] ++ String.ofList blanks) n =
        .error (.inconsistent e)) ↔ ¬ (t.shown table.schema table.settings now data).Coherent) ∧
      ((∃ value, p.parse (render table.settings.bullet [doc] ++ String.ofList blanks) n = .ok value) ↔
        (t.shown table.schema table.settings now data).Coherent) := by
  obtain ⟨hok, herror⟩ := Template.parse_drafted ht (Node.LegibleAll.of_clause t.kind hl) hbullet hf hp hs
    hdraft hblanks n
  have hplain : Slot.PlainAll (capturesAll table.schema table.settings now t.body data) := by
    obtain ⟨ts, hts, _⟩ := Template.texts_of_draft table.settings.bullet hs hdraft
    exact @plain_capturesAll _ _ ⟨data, now, t.kind⟩ _ _ t.body [] data ts hl hts
  -- The identifier of the record is given out in either case.
  have hfold : (∃ v m, (Captured.fold [] (t.shown table.schema table.settings now data)).run n =
      .ok (v, m)) ↔ (t.shown table.schema table.settings now data).Coherent := by
    have hiff := @Captured.run_fold_iff []
      (.record t.type none (capturesAll table.schema table.settings now t.body data)) n
    have hplain : (Captured.record t.type none
      (capturesAll table.schema table.settings now t.body data)).Plain := ⟨rfl, hplain⟩
    constructor
    · rintro ⟨v, m, hv⟩
      obtain ⟨fields, k, hfields, _⟩ := Captured.run_fold_record.mp hv
      exact ((hiff k _ hplain).mp
        (Captured.run_fold_record.mpr ⟨fields, k, hfields, rfl, rfl⟩)).1
    · intro hc
      obtain ⟨fields, k, hfields, _⟩ :=
        Captured.run_fold_record.mp ((hiff n _ hplain).mpr ⟨hc, rfl, rfl⟩)
      exact ⟨_, _, Captured.run_fold_record.mpr ⟨fields, k, hfields, rfl, rfl⟩⟩
  rw [← hfold]
  by_cases h : ∃ v m, (Captured.fold [] (t.shown table.schema table.settings now data)).run n = .ok (v, m)
  · obtain ⟨value, m, hvalue⟩ := h
    have hparse := hok value m hvalue
    simp [hparse, hvalue]
  · obtain ⟨e, he⟩ := herror fun value m hvalue => h ⟨value, m, hvalue⟩
    simp [he, h]

end Template

namespace Halves

def schema : Schema :=
  ⟨[.concept "Pair" [.plain "left" "String", .plain "right" "String"],
    .concept "Holder" [.plain "pair" "Pair"]]⟩

def markup : String :=
  "\x7b\x7b#with pair\x7d\x7d\x7b\x7bleft\x7d\x7d\x7b\x7b/with\x7d\x7d " ++
  "\x7b\x7b#with pair\x7d\x7d\x7b\x7bright\x7d\x7d\x7b\x7b/with\x7d\x7d"

def part (name : String) : Node :=
  .within "pair" (some "Pair") [.variable ⟨name, some "String", none, none, []⟩]

def template : Template :=
  ⟨.clause, "Holder", [.markup .paragraph [part "left", .text " ", part "right"]]⟩

def context : ScanContext := ⟨0, ⟨0, 0, 0⟩⟩

def parser : TemplateParser :=
  ⟨context, [], .record "Holder" (some "clauseId") (template.grammar schema .standard)⟩

def record : Json := .obj [("pair", .obj [("left", .str "1"), ("right", .str "2")])]

def shownPart (name value : String) : Slot :=
  .mk "pair" (.record "Pair" none [.mk name (.value (.str value)) 0]) 0

def tells (name value : String) : Json := .obj [("$class", .str "Pair"), (name, .str value)]

theorem ofMarkup_eq : Template.ofMarkup schema .clause "Holder" markup = .ok template :=
  Template.eq_ok_of_equal (by decide +kernel)

theorem drafts : ∃ doc s', (template.draft record ⟨0, 0, 0⟩).run ⟨Table.empty schema .standard, 0⟩ =
    (.ok doc, s') :=
  exists_ok_of_isOk (by decide +kernel)

theorem shown_eq : template.shown schema .standard ⟨0, 0, 0⟩ record =
    .record "Holder" (some "clauseId") [shownPart "left" "1", shownPart "right" "2"] := by cbv

/-- Two blocks that show different fields of one record do not agree. -/
theorem parse_inconsistent_halves : ∃ doc s',
    (template.draft record ⟨0, 0, 0⟩).run ⟨Table.empty schema .standard, 0⟩ = (.ok doc, s') ∧
      ∃ e, parser.parse (render '-' [doc] ++ String.ofList []) 0 = .error (.inconsistent e) := by
  have hparser : (template.parser context (Table.empty schema .standard)).1 = .ok parser := by cbv
  have hlegible : Node.LegibleAll .clause template.body := by
    simp [template, part, Node.text, Node.LegibleAll, Node.Legible, Node.clauseName?, plainTypes]
  obtain ⟨doc, s', hdraft⟩ := drafts
  refine ⟨doc, s', hdraft, ?_⟩
  have hiff := (@Template.parse_inconsistent_iff _ _ _ _ _ _ (Table.empty schema .standard) _
    ofMarkup_eq hlegible (by decide) (Table.faithful_empty schema .standard) hparser _ _ _ _ _
    ⟨rfl, rfl, Table.faithful_empty schema .standard⟩ hdraft [] rfl 0).1
  refine hiff.mpr fun hcoherent => ?_
  have hparts : (template.shown schema .standard ⟨0, 0, 0⟩ record).Coherent := hcoherent
  rw [shown_eq] at hparts
  have htold : tells "right" "2" = tells "left" "1" :=
    (hparts.1.1 (by decide)).2 _ 0 List.mem_cons_self
  simp [tells] at htold

end Halves

end ClauseTemplates
