import Mathlib
import ClauseTemplates.Proofs.Grammar.Reading
import ClauseTemplates.Proofs.Markup.Level
import ClauseTemplates.Proofs.Parsing.Progress
import ClauseTemplates.Proofs.Template.Places

namespace ClauseTemplates

open Json

/-- Slots of records inside one another lead along a path to what is captured at its end. -/
inductive Leads : List Slot → List String → Captured → Prop
  | last {slots : List Slot} {name : String} {c : Captured} {start : Nat} :
    .mk name c start ∈ slots → name ≠ thisName → Leads slots [name] c
  | inside {slots inner : List Slot} {name type : String} {identifier : Option String}
      {path : List String} {c : Captured} {start : Nat} :
    .mk name (.record type identifier inner) start ∈ slots → name ≠ thisName →
      Leads inner path c → Leads slots (name :: path) c

namespace Leads

theorem mono {slots more : List Slot} {path : List String} {c : Captured}
    (h : Leads slots path c) (hm : ∀ s ∈ slots, s ∈ more) : Leads more path c := by
  cases h with
  | last hmem hname => exact .last (hm _ hmem) hname
  | inside hmem hname h => exact .inside (hm _ hmem) hname h

/-- The record of the slots has a value at the end of the path, like that of what is captured. -/
theorem folds {text : List Char} {slots : List Slot} {path : List String} {c : Captured}
    (h : Leads slots path c) {fields found : Fields} {n m : Nat}
    (hf : (Captured.foldSlots text fields slots).run n = .ok (found, m)) :
    ∃ v u j k, (Json.obj found).at? path = some v ∧ (c.fold text).run j = .ok (u, k) ∧
      Alike v u := by
  have halike {first v : Json} (h : first = v ∨ first.same v = true) : Alike first v := by
    rcases h with rfl | h
    · exact Alike.refl first
    · exact alike_of_same first v h
  induction h generalizing fields found n m with
  | last hmem hname =>
    obtain ⟨first, v, j, k, hget, hv, hsame⟩ := Captured.foldSlots_slot hf hmem hname
    exact ⟨first, v, j, k, by simp [Json.at?, Json.get?, hget], hv, halike hsame⟩
  | @inside slots inner name type identifier path c start hmem hname hin ih =>
    obtain ⟨first, v, j, k, hget, hv, hsame⟩ := Captured.foldSlots_slot hf hmem hname
    obtain ⟨fields', k', hf', rfl, _⟩ := Captured.run_fold_record.mp hv
    obtain ⟨w, u, j', k'', hw, hu, ha⟩ := ih hf'
    have hw' : (Json.obj (Captured.identified identifier fields' k').1).at? path = some w := by
      cases hin with
      | last _ _ =>
        obtain ⟨x, hx, hxw⟩ := Option.bind_eq_some_iff.mp hw
        exact Option.bind_eq_some_iff.mpr ⟨x, Captured.get?_identified_of_some hx, hxw⟩
      | inside _ _ _ =>
        obtain ⟨x, hx, hxw⟩ := Option.bind_eq_some_iff.mp hw
        exact Option.bind_eq_some_iff.mpr ⟨x, Captured.get?_identified_of_some hx, hxw⟩
    obtain ⟨y, hy, hya⟩ := (halike hsame).symm.at? hw'
    exact ⟨y, u, j', k'', by simp [Json.at?, Json.get?, hget, hy], hu, hya.symm.trans ha⟩

end Leads

/-- The text of a clause region without its body. -/
def Markdown.bareRegion (margin : List Char) (name : String) (src : Option String) : List Char :=
  clauseOpen name src ++ newline margin ++ clauseClose

namespace Grammar

variable {context : ScanContext} {compound : String → Scanner Char Captured}

/-- A clause region is read with its body, or without it whatever the body is. -/
theorem spells_ofRegion {margin : List Char} {name : String} {src : Option String} {body : Grammar}
    {w : List Char} {slots : List Slot}
    (h : (ofRegion margin name src body).Spells context compound w slots) :
    w = Markdown.bareRegion margin name src ∧ slots = [] ∨
      ∃ v, body.Spells context compound v slots ∧
        w = Markdown.clauseOpen name src ++ Markdown.newline margin ++
          (v ++ Markdown.newline margin) ++ Markdown.clauseClose := by
  simp only [ofRegion, concat, nothing, Spells] at h
  obtain ⟨_, _, _, _, rfl, rfl, ⟨rfl, rfl⟩, _, _, _, _, rfl, rfl, ⟨rfl, rfl⟩, _, _, _, _, rfl,
    rfl, hbody, _, _, _, _, rfl, rfl, ⟨rfl, rfl⟩, rfl, rfl⟩ := h
  rcases hbody with ⟨rfl, rfl⟩ | ⟨v, _, s, _, rfl, rfl, hv, rfl, rfl⟩
  · exact Or.inl ⟨by simp [Markdown.bareRegion], rfl⟩
  · exact Or.inr ⟨v, by simpa using hv, by simp⟩

open Scan Scanner in
/-- The body of a clause region that stands alone need not be there. -/
theorem read?_bareRegion (name : String) (src : Option String) (body : Grammar) (offset : Nat)
    (hc : ∀ type, Advances (compound type)) :
    read? ((ofRegion [] name src body).scanner context compound)
        ⟨offset, Markdown.bareRegion [] name src⟩ =
      some ([], ⟨offset + (Markdown.bareRegion [] name src).length, []⟩) := by
  have hbody (o : Nat) : read? ((Grammar.seq body (.text (Markdown.newline []))).scanner
      context compound) ⟨o, Markdown.clauseClose⟩ = none := by
    cases hr : read? ((Grammar.seq body (.text (Markdown.newline []))).scanner context compound)
      ⟨o, Markdown.clauseClose⟩ with
    | none => rfl
    | some x =>
      obtain ⟨w, ⟨hw, _⟩, hs⟩ := scanner_spells hc _ _ _ _ hr
      obtain ⟨v, _, _, _, rfl, _, _, rfl, _⟩ := hs
      have hmem : '\n' ∈ Markdown.clauseClose := by
        dsimp only at hw
        rw [hw]
        simp [Markdown.newline]
      exact absurd hmem (by decide)
  have hopt (o : Nat) : read? ((optionally (.seq body (.text (Markdown.newline [])))).scanner context
      compound) ⟨o, Markdown.clauseClose⟩ = some ([], ⟨o, Markdown.clauseClose⟩) := by
    rw [read?_optionally, hbody]
    rfl
  have hclose (o : Nat) : read? ((Grammar.text Markdown.clauseClose).scanner context compound)
      ⟨o, Markdown.clauseClose⟩ = some ([], ⟨o + Markdown.clauseClose.length, []⟩) := by
    rw [← List.append_nil Markdown.clauseClose]
    exact read?_text_append _ _ _
  have h := read?_seq_some (read?_text_append (Markdown.clauseOpen name src) _ offset)
    (read?_seq_some (read?_text_append (Markdown.newline []) _ _)
      (read?_seq_some (hopt _) (read?_seq_some (hclose _) (read?_nothing _))))
  rw [ofRegion, Markdown.bareRegion, List.append_assoc]
  refine h.trans ?_
  simp [Nat.add_assoc]

/-- What a spelled text shows at a place: a value, or a clause around it that is left bare. -/
def Shows (identifier : String) (w : List Char) (slots : List Slot) (place : Place) : Prop :=
  (∃ c, Leads slots place.path c) ∨
  ∃ before name src after type margin, place.steps = before ++ .clause name src :: after ∧
    Leads slots (before.map Step.name ++ [name]) (.record type (some identifier) []) ∧
    Markdown.bareRegion margin name src <:+: w

namespace Shows

variable {identifier : String} {w v : List Char} {slots inner : List Slot} {place : Place}

theorem mono (h : Shows identifier v inner place) (hw : v <:+: w) (hs : ∀ s ∈ inner, s ∈ slots) :
    Shows identifier w slots place := by
  rcases h with ⟨c, hc⟩ | ⟨before, name, src, after, type, margin, hsteps, hc, hr⟩
  · exact Or.inl ⟨c, hc.mono hs⟩
  · exact Or.inr ⟨before, name, src, after, type, margin, hsteps, hc.mono hs, hr.trans hw⟩

theorem inside (step : Step) {type : String} {id : Option String} {start : Nat}
    (hname : step.name ≠ thisName) (h : Shows identifier v inner place) (hw : v <:+: w) :
    Shows identifier w [.mk step.name (.record type id inner) start] (place.inside step) := by
  have hmem : Slot.mk step.name (.record type id inner) start ∈
      [Slot.mk step.name (.record type id inner) start] := List.mem_singleton_self _
  rcases h with ⟨c, hc⟩ | ⟨before, name, src, after, type', margin, hsteps, hc, hr⟩
  · exact Or.inl ⟨c, .inside hmem hname hc⟩
  · refine Or.inr ⟨step :: before, name, src, after, type', margin, ?_, .inside hmem hname hc,
      hr.trans hw⟩
    exact congrArg (step :: ·) hsteps

end Shows

section

variable {schema : Schema} {settings : Settings}

mutual

/-- A text of a contract shows every place of its template. -/
theorem shows_ofNode {level : Level} : ∀ (n : Node) (margin w : List Char) (slots : List Slot),
    n.At level → (ofNode schema .contract settings margin n).Spells context compound w slots →
    ∀ place ∈ n.places, thisName ∉ place.path → Shows settings.clauseIdentifier w slots place
  | .variable v, margin, w, slots, _, h, place, hp, hthis => by
    simp only [Node.places, List.mem_singleton] at hp
    subst hp
    simp only [ofNode, Spells] at h
    obtain ⟨c, start, rfl, _⟩ := h
    refine Or.inl ⟨c, .last (List.mem_singleton_self _) ?_⟩
    simpa [Place.path, eq_comm] using hthis
  | .enumVariable v, margin, w, slots, _, h, place, hp, hthis => by
    simp only [Node.places, List.mem_singleton] at hp
    subst hp
    simp only [ofNode, Spells] at h
    obtain ⟨c, start, rfl, _⟩ := h
    refine Or.inl ⟨c, .last (List.mem_singleton_self _) ?_⟩
    simpa [Place.path, eq_comm] using hthis
  | .formula _, _, _, _, _, _, _, hp, _ => by simp [Node.places] at hp
  | .conditional _ _ _ _, _, _, _, _, _, _, hp, _ => by simp [Node.places] at hp
  | .optional _ _ _ _, _, _, _, _, _, _, hp, _ => by simp [Node.places] at hp
  | .list _ _ _ _, _, _, _, _, _, _, hp, _ => by simp [Node.places] at hp
  | .join _ _ _ _, _, _, _, _, _, _, hp, _ => by simp [Node.places] at hp
  | .leaf _, _, _, _, _, _, _, hp, _ => by simp [Node.places] at hp
  | .contract _ _, _, _, _, hl, _, _, _, _ => hl.elim
  | .within name type children, margin, w, slots, ⟨_, hl⟩, h, place, hp, hthis => by
    simp only [Node.places, List.mem_map] at hp
    obtain ⟨place, hp, rfl⟩ := hp
    simp only [ofNode, Spells, ValueGrammar.Spells] at h
    obtain ⟨_, start, rfl, inner, rfl, h⟩ := h
    simp only [Place.path_inside, List.mem_cons, not_or] at hthis
    exact (shows_ofInlines children margin w inner hl h place hp hthis.2).inside (.within name)
      (Ne.symm hthis.1) (List.infix_refl w)
  | .clause name type src condition children, margin, w, slots, ⟨_, _, hl⟩, h, place, hp, hthis => by
    rw [Node.places] at hp
    split at hp
    · cases hp
    · obtain ⟨place, hin, rfl⟩ := List.mem_map.mp hp
      rw [ofNode, if_pos rfl] at h
      obtain ⟨_, start, rfl, inner, rfl, h⟩ := h
      simp only [Place.path_inside, List.mem_cons, not_or] at hthis
      rcases spells_ofRegion h with ⟨rfl, rfl⟩ | ⟨v, hv, rfl⟩
      · refine Or.inr ⟨[], name, src, place.steps, type.getD "", margin, rfl, ?_,
          List.infix_refl _⟩
        exact .last (List.mem_singleton_self _) (Ne.symm hthis.1)
      · refine (shows_ofEach children margin _ v inner hl (Or.inl hv) place hin hthis.2).inside
          (.clause name src) (Ne.symm hthis.1) ?_
        exact ⟨Markdown.clauseOpen name src ++ Markdown.newline margin,
          Markdown.newline margin ++ Markdown.clauseClose, by simp⟩
  | .markup frame children, margin, w, slots, ⟨inner, hf, hl⟩, h, place, hp, hthis => by
    rw [Node.places] at hp
    cases frame with
    | document _ => cases hf
    | clause _ _ _ => cases hf
    | paragraph =>
      rw [ofNode] at h
      exact shows_ofInlines children margin w slots hl h place hp hthis
    | heading _ =>
      rw [ofNode] at h
      obtain ⟨v₁, v₂, _, s₂, rfl, rfl, ⟨rfl, rfl⟩, h⟩ := h
      exact (shows_ofInlines children margin v₂ s₂ hl h place hp hthis).mono
        ⟨_, [], List.append_nil _⟩ fun _ => id
    | blockQuote =>
      rw [ofNode] at h
      obtain ⟨v₁, v₂, _, s₂, rfl, rfl, ⟨rfl, rfl⟩, h⟩ := h
      exact (shows_ofEach children _ _ v₂ s₂ hl (Or.inl h) place hp hthis).mono
        ⟨_, [], List.append_nil _⟩ fun _ => id
    | list kind start =>
      rw [ofNode] at h
      exact shows_ofItems children margin [] kind start.toNat w slots hl h place hp hthis
    | item =>
      rw [ofNode] at h
      exact shows_ofEach children margin _ w slots hl (Or.inl h) place hp hthis
    | emph =>
      rw [ofNode] at h
      obtain ⟨v, rfl, hv⟩ := spells_enclosed h
      exact (shows_ofInlines children margin v slots hl hv place hp hthis).mono ⟨_, _, rfl⟩
        fun _ => id
    | strong =>
      rw [ofNode] at h
      obtain ⟨v, rfl, hv⟩ := spells_enclosed h
      exact (shows_ofInlines children margin v slots hl hv place hp hthis).mono ⟨_, _, rfl⟩
        fun _ => id

theorem shows_ofEach {level : Level} : ∀ (ns : List Node) (margin separator w : List Char)
    (slots : List Slot), Node.EachAt level ns →
    (Compiling.assemble separator (ofEach schema .contract settings margin ns)).1.Spells
        context compound w slots ∨
      (Compiling.assemble separator (ofEach schema .contract settings margin ns)).2.Spells
        context compound w slots →
    ∀ place ∈ Node.placesAll ns, thisName ∉ place.path →
      Shows settings.clauseIdentifier w slots place
  | [], _, _, _, _, _, _, _, hp, _ => by cases hp
  | n :: rest, margin, separator, w, slots, ⟨hl, hrest⟩, h, place, hp, hthis => by
    rw [ofEach, spells_assemble_first, spells_assemble_later] at h
    have hboth (v₁ v₂ : List Char) (s₁ s₂ : List Slot)
        (h₁ : (ofNode schema .contract settings margin n).Spells context compound v₁ s₁)
        (h₂ : (Compiling.assemble separator (ofEach schema .contract settings margin rest)).2.Spells
          context compound v₂ s₂) :
        Shows settings.clauseIdentifier (v₁ ++ v₂) (s₁ ++ s₂) place := by
      rcases List.mem_append.mp hp with hp | hp
      · exact (shows_ofNode n margin v₁ s₁ hl h₁ place hp hthis).mono
          (List.prefix_append _ _).isInfix fun _ => List.mem_append_left _
      · exact (shows_ofEach rest margin separator v₂ s₂ hrest (Or.inr h₂) place hp hthis).mono
          (List.suffix_append _ _).isInfix fun _ => List.mem_append_right _
    have helided (he : Compiling.isElidable .contract n = true) : place ∈ Node.placesAll rest := by
      cases n with
      | clause name type src condition children =>
        have hc : condition.isSome = true := by simpa [Compiling.isElidable] using he
        simpa [Node.placesAll, Node.places, hc] using hp
      | _ => cases he
    rcases h with (⟨v₁, v₂, s₁, s₂, rfl, rfl, h₁, h₂⟩ | ⟨he, h⟩) |
      (⟨v₁, v₂, s₁, s₂, rfl, rfl, h₁, h₂⟩ | ⟨he, h⟩)
    · exact hboth v₁ v₂ s₁ s₂ h₁ h₂
    · exact shows_ofEach rest margin separator w slots hrest (Or.inl h) place (helided he) hthis
    · exact (hboth v₁ v₂ s₁ s₂ h₁ h₂).mono (List.suffix_append _ _).isInfix fun _ => id
    · exact shows_ofEach rest margin separator w slots hrest (Or.inr h) place (helided he) hthis

theorem shows_ofInlines {level : Level} : ∀ (ns : List Node) (margin w : List Char)
    (slots : List Slot), Node.EachAt level ns →
    (ofInlines schema .contract settings margin ns).Spells context compound w slots →
    ∀ place ∈ Node.placesAll ns, thisName ∉ place.path →
      Shows settings.clauseIdentifier w slots place
  | [], _, _, _, _, _, _, hp, _ => by cases hp
  | n :: rest, margin, w, slots, ⟨hl, hrest⟩, h, place, hp, hthis => by
    rw [ofInlines] at h
    obtain ⟨v₁, v₂, s₁, s₂, rfl, rfl, h₁, h₂⟩ := h
    rcases List.mem_append.mp hp with hp | hp
    · exact (shows_ofNode n margin v₁ s₁ hl h₁ place hp hthis).mono
        (List.prefix_append _ _).isInfix fun _ => List.mem_append_left _
    · exact (shows_ofInlines rest margin v₂ s₂ hrest h₂ place hp hthis).mono
        (List.suffix_append _ _).isInfix fun _ => List.mem_append_right _

theorem shows_ofItems {level : Level} : ∀ (ns : List Node) (margin lead : List Char)
    (kind : ListKind) (number : Nat) (w : List Char) (slots : List Slot), Node.EachAt level ns →
    (ofItems schema .contract settings margin kind lead number ns).Spells context compound w slots →
    ∀ place ∈ Node.placesAll ns, thisName ∉ place.path →
      Shows settings.clauseIdentifier w slots place
  | [], _, _, _, _, _, _, _, _, _, hp, _ => by cases hp
  | n :: rest, margin, lead, kind, number, w, slots, ⟨hl, hrest⟩, h, place, hp, hthis => by
    rw [ofItems] at h
    obtain ⟨_, _, _, _, rfl, rfl, ⟨rfl, rfl⟩, v₁, _, s₁, _, rfl, rfl, h₁, v₂, _, s₂, _, rfl, rfl, h₂,
      rfl, rfl⟩ := h
    rcases List.mem_append.mp hp with hp | hp
    · refine (shows_ofNode n _ v₁ s₁ hl h₁ place hp hthis).mono ?_ fun _ => List.mem_append_left _
      exact ⟨lead ++ Markdown.itemMark settings.bullet kind number, v₂ ++ [], by simp⟩
    · refine (shows_ofItems rest margin _ kind _ v₂ s₂ hrest h₂ place hp hthis).mono ?_ ?_
      · exact ⟨lead ++ Markdown.itemMark settings.bullet kind number ++ v₁, [], by simp⟩
      · simpa using fun _ => Or.inr

end

end

end Grammar

/-- A record that holds nothing but its class and its identifier. -/
def Json.Bare (identifier : String) (v : Json) : Prop :=
  ∃ fields, v = .obj fields ∧
    ∀ name, (Fields.get? name fields).isSome → name = "$class" ∨ name = identifier

theorem Captured.bare_of_fold {text : List Char} {type identifier : String} {n m : Nat} {u v : Json}
    (h : (fold text (.record type (some identifier) [])).run n = .ok (u, m)) (ha : Alike v u) :
    v.Bare identifier := by
  obtain ⟨fields, k, hf, rfl, _⟩ := run_fold_record.mp h
  rw [foldSlots] at hf
  obtain ⟨rfl, rfl⟩ := Folding.run_pure_eq_ok.mp hf
  have hclass : (v.at? ["$class"]).isSome = true := by
    rw [ha ["$class"], Json.at?, Json.get?, get?_identified_of_some (v := .str type)]
    · rfl
    · rw [Fields.get?_cons, if_pos rfl]
  cases v with
  | obj fields =>
    refine ⟨fields, rfl, fun name hname => ?_⟩
    by_cases hid : name = identifier
    · exact Or.inr hid
    · have hn : ((Json.obj fields).at? [name]).isSome = true := by
        obtain ⟨x, hx⟩ := Option.isSome_iff_exists.mp hname
        simp [Json.at?, Json.get?, hx]
      rw [ha [name], Json.at?, Json.get?, get?_identified (by simpa using hid), Fields.get?_cons] at hn
      split at hn
      · rename_i heq
        exact Or.inl heq
      · cases hn
  | _ => cases hclass

/-- A clause around a place is left out: its record is bare and lacks the rest of the path, and its
region stands in the text without a body. -/
def Place.LeftOut (place : Place) (identifier : String) (value : Json) (text : List Char) : Prop :=
  ∃ before name src after record margin, place.steps = before ++ .clause name src :: after ∧
    value.at? (before.map Step.name ++ [name]) = some record ∧ record.Bare identifier ∧
    record.at? (after.map Step.name ++ [place.shown]) = none ∧
    Markdown.bareRegion margin name src <:+: text

theorem Place.path_eq {place : Place} {before after : List Step} {name : String}
    {src : Option String} (h : place.steps = before ++ .clause name src :: after) :
    place.path =
      (before.map Step.name ++ [name]) ++ (after.map Step.name ++ [place.shown]) := by
  simp [Place.path, h, Step.name]

/-- A parsed record lacks a variable exactly where a clause around it is left out. -/
theorem Template.parse_holds_iff {schema : Schema} {type markup : String} {t : Template}
    {context : ScanContext} {table : Table} {p : TemplateParser} {text : String} {n : Nat}
    {value : Json} (ht : Template.ofMarkup schema .contract type markup = .ok t)
    (hf : table.Faithful) (hp : (t.parser context table).1 = .ok p)
    (hv : p.parse text n = .ok value) {place : Place} (hplace : place ∈ Node.placesAll t.body)
    (hthis : thisName ∉ place.path) :
    (value.at? place.path).isSome ↔
      ¬ place.LeftOut table.settings.clauseIdentifier value text.toList := by
  constructor
  · rintro h ⟨before, name, src, after, record, margin, hsteps, hrecord, _, hnone, _⟩
    rw [Place.path_eq hsteps, at?_append, hrecord, Option.bind_some, hnone] at h
    cases h
  · intro hleft
    obtain ⟨hkind, _, hlevel⟩ := Template.ofMarkup_at ht
    obtain ⟨w, blanks, compound, slots, fields, k, htext, _, hs, hfold, rfl⟩ :=
      Template.spelled hf hp hv
    rw [Template.grammar, hkind] at hs
    have hkeep (path : List String) (name : String) (v : Json)
        (h : (Json.obj fields).at? (name :: path) = some v) :
        (Json.obj (Captured.identified (some (t.identifier table.settings)) fields k).1).at?
          (name :: path) = some v := by
      obtain ⟨x, hx, hxv⟩ := Option.bind_eq_some_iff.mp h
      exact Option.bind_eq_some_iff.mpr ⟨x, Captured.get?_identified_of_some hx, hxv⟩
    have hleads {path : List String} {c : Captured} (h : Leads slots path c) :
        ∃ v u j m, (Json.obj (Captured.identified (some (t.identifier table.settings)) fields k).1).at?
          path = some v ∧ (c.fold text.toList).run j = .ok (u, m) ∧ Alike v u := by
      obtain ⟨v, u, j, m, hv, hu, ha⟩ := h.folds hfold
      cases h with
      | last _ _ => exact ⟨v, u, j, m, hkeep _ _ _ hv, hu, ha⟩
      | inside _ _ _ => exact ⟨v, u, j, m, hkeep _ _ _ hv, hu, ha⟩
    rcases Grammar.shows_ofEach t.body [] _ w slots hlevel (Or.inl hs) place hplace hthis with
      ⟨c, hc⟩ | ⟨before, name, src, after, type', margin, hsteps, hc, hregion⟩
    · obtain ⟨v, _, _, _, hv, _⟩ := hleads hc
      rw [hv]
      rfl
    · obtain ⟨v, u, j, m, hv, hu, ha⟩ := hleads hc
      cases hrest : v.at? (after.map Step.name ++ [place.shown]) with
      | some x =>
        rw [Place.path_eq hsteps, at?_append, hv, Option.bind_some, hrest]
        rfl
      | none =>
        refine absurd ⟨before, name, src, after, v, margin, hsteps, hv, Captured.bare_of_fold hu ha,
          hrest, ?_⟩ hleft
        rw [htext]
        exact hregion.trans (List.prefix_append w blanks).isInfix

/-- A contract of one clause accepts the region of this clause without its body. -/
theorem Template.parse_bareRegion {t : Template} {context : ScanContext} {table : Table}
    {p : TemplateParser} {name : String} {type src : Option String} {children : List Node}
    (hf : table.Faithful) (hp : (t.parser context table).1 = .ok p) (hkind : t.kind = .contract)
    (hbody : t.body = [.clause name type src none children]) (hname : name ≠ "$class") (n : Nat) :
    ∃ value, p.parse (String.ofList (Markdown.bareRegion [] name src)) n = .ok value := by
  obtain ⟨hctx, hroot⟩ := Template.parser_ok hf hp
  have hg : t.grammar table.schema table.settings =
      .seq (.slot name (.record (type.getD "") (some table.settings.clauseIdentifier)
        (Grammar.ofRegion [] name src (Grammar.ofBlocks []
          (Grammar.ofEach table.schema .contract table.settings [] children))))) .nothing := by
    simp [Template.grammar, hkind, hbody, Grammar.ofEach, Grammar.ofNode, Grammar.ofBlocks,
      Compiling.assemble, Compiling.isElidable]
  let compound := Grammar.compoundScanner context p.compounds
    ((Markdown.bareRegion [] name src).length + 1)
  have hread := @Grammar.read?_bareRegion context compound name src (Grammar.ofBlocks []
    (Grammar.ofEach table.schema .contract table.settings [] children)) 0
    (Grammar.advances_compoundScanner p.compounds _)
  have hscan : Scanner.run (Grammar.textScanner p.context p.compounds p.root)
      (Markdown.bareRegion [] name src) =
      .ok (.record t.type (some (t.identifier table.settings))
        [.mk name (.record (type.getD "") (some table.settings.clauseIdentifier) []) 0]) := by
    rw [hctx, hroot, hg, Grammar.textScanner_iff]
    refine ⟨⟨0 + (Markdown.bareRegion [] name src).length, []⟩, ?_, rfl⟩
    rw [Grammar.read?_record, Grammar.read?_seq, Grammar.read?_slot, Grammar.read?_record,
      Scan.Cursor.start, hread]
    simp [Grammar.read?_nothing]
  have hcapture := TemplateParser.capture_eq_ok.mpr hscan
  simp only [TemplateParser.parse_eq_ok, String.toList_ofList, hcapture, Except.ok.injEq,
    exists_and_left, exists_eq_left', Captured.run_fold_record]
  by_cases hthis : name = thisName
  · subst hthis
    exact ⟨_, _, _, _, Captured.run_foldSlots_this.mpr rfl, rfl, rfl⟩
  · obtain ⟨v, k, hv⟩ : ∃ v k, (Captured.fold (Markdown.bareRegion [] name src)
        (.record (type.getD "") (some table.settings.clauseIdentifier) [])).run n = .ok (v, k) :=
      ⟨_, _, Captured.run_fold_record.mpr ⟨_, _, rfl, rfl, rfl⟩⟩
    exact ⟨_, _, _, _, (Captured.run_foldSlots_cons hthis).mpr
      ⟨v, k, hv, by simp [Fields.get?_cons, hname], rfl⟩, rfl, rfl⟩

/-- The parser of a contract gives a record that lacks a variable exactly where a clause around it is
left out, and a contract of one clause may leave it out whatever its body. The body is tried first, so
this takes repetitions that end. -/
theorem Template.parser_complete_iff {schema : Schema} {type markup : String} {t : Template}
    {context : ScanContext} {table : Table} {p : TemplateParser}
    (ht : Template.ofMarkup schema .contract type markup = .ok t) (hf : table.Faithful)
    (hp : (t.parser context table).1 = .ok p) :
    (∀ (text : String) (n : Nat) (value : Json), p.parse text n = .ok value →
      ∀ place ∈ Node.placesAll t.body, thisName ∉ place.path →
        ((value.at? place.path).isSome ↔
          ¬ place.LeftOut table.settings.clauseIdentifier value text.toList)) ∧
    (p.Progresses → ∀ (name : String) (type src : Option String) (children : List Node),
      t.body = [.clause name type src none children] → name ≠ "$class" → ∀ n, ∃ value,
        p.parse (String.ofList (Markdown.bareRegion [] name src)) n = .ok value) := by
  refine ⟨fun text n value hv place hplace hthis => ?_, fun _ name type src children hb hname n => ?_⟩
  · exact Template.parse_holds_iff ht hf hp hv hplace hthis
  · exact Template.parse_bareRegion hf hp (Template.ofMarkup_at ht).1 hb hname n

namespace OneClause

def schema : Schema :=
  ⟨[.concept "Clause" [.plain "shown" "String"], .concept "Contract" [.plain "part" "Clause"]]⟩

def markup : String :=
  "\x7b\x7b#clause part\x7d\x7d\n\x7b\x7bshown\x7d\x7d\n\x7b\x7b/clause\x7d\x7d"

def template : Template :=
  ⟨.contract, "Contract", [.clause "part" (some "Clause") none none
    [.markup .paragraph [.variable ⟨"shown", some "String", none, none, []⟩]]]⟩

def context : ScanContext := ⟨0, ⟨0, 0, 0⟩⟩

def parser : TemplateParser :=
  ⟨context, [], .record "Contract" (some "contractId") (template.grammar schema .standard)⟩

def bareText : String := String.ofList (Markdown.bareRegion [] "part" none)

def bareRecord : Json :=
  .obj [("$class", .str "Contract"), ("contractId", .str (Identifier.numbered 1)),
    ("part", .obj [("$class", .str "Clause"), ("clauseId", .str (Identifier.numbered 0))])]

def place : Place := ⟨[.clause "part" none], "shown"⟩

set_option maxRecDepth 100000 in
/-- The record of the bare region has no field for the variable. -/
theorem parser_complete_iff_bare :
    parser.parse bareText 0 = .ok bareRecord ∧ bareRecord.at? place.path = none ∧
      place.LeftOut "clauseId" bareRecord bareText.toList ∧
      ∃ value, parser.parse bareText 7 = .ok value := by
  have hparse : parser.parse bareText 0 = .ok bareRecord := by cbv
  have hnone : bareRecord.at? place.path = none := by cbv
  have hpath : thisName ∉ place.path := by decide
  have hplace : place ∈ Node.placesAll template.body := by simp [template, place, Node.placesAll, Node.places, Place.inside]
  have hmarkup : Template.ofMarkup schema .contract "Contract" markup = .ok template :=
    Template.eq_ok_of_equal (by decide +kernel)
  have hprogresses : parser.Progresses := TemplateParser.progresses_of_regions rfl
  obtain ⟨hholds, hbare⟩ := Template.parser_complete_iff hmarkup (Table.faithful_empty schema .standard)
    (by cbv : (template.parser context (Table.empty schema .standard)).1 = .ok parser)
  refine ⟨hparse, hnone, ?_, hbare hprogresses "part" _ none _ rfl (by decide) 7⟩
  by_contra hleft
  have h := (hholds bareText 0 bareRecord hparse place hplace hpath).mpr hleft
  rw [hnone] at h
  cases h

end OneClause

end ClauseTemplates
