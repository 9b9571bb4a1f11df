import ClauseTemplates.Grammar.Compile
import ClauseTemplates.Proofs.Format.Advances
import ClauseTemplates.Proofs.Grammar.Longest
import ClauseTemplates.Proofs.Scan.Separated
import Mathlib.Data.List.TakeWhile

namespace ClauseTemplates

open Scan Scanner

/-- The scanner reads a value from this text somewhere. -/
def Scanner.Reads {τ α : Type} (p : Scanner τ α) (w : List τ) (a : α) : Prop :=
  ∃ c next, read? p c = some (a, next) ∧ c.Passes w next

theorem Scanner.Advances.reads {τ α : Type} {p : Scanner τ α} (hp : Advances p)
    {c next : Cursor τ} {a : α} (h : read? p c = some (a, next)) :
    ∃ w, c.Passes w next ∧ p.Reads w a := by
  obtain ⟨w, hw⟩ := hp c a next h
  exact ⟨w, hw, c, next, h, hw⟩

section

variable (context : ScanContext) (compound : String → Scanner Char Captured)

mutual

/-- The texts of a grammar and the slots they show, with no order among alternatives: what the
scanner reads is one of these, and it need not read all of them. -/
def Grammar.Spells : Grammar → List Char → List Slot → Prop
  | .text chars, w, slots => w = chars ∧ slots = []
  | .seq first second, w, slots =>
    ∃ v₁ v₂ slots₁ slots₂, w = v₁ ++ v₂ ∧ slots = slots₁ ++ slots₂ ∧
      Grammar.Spells first v₁ slots₁ ∧ Grammar.Spells second v₂ slots₂
  | .either first second, w, slots =>
    Grammar.Spells first w slots ∨ Grammar.Spells second w slots
  | .flagged branch name flag, w, slots =>
    ∃ shown start, slots = shown ++ [.mk name (.value (.bool flag)) start] ∧
      Grammar.Spells branch w shown
  | .slot name value, w, slots =>
    ∃ captured start, slots = [.mk name captured start] ∧ ValueGrammar.Spells value w captured
  | .formula, _, slots => slots = []
  | .orderedMark, _, slots => slots = []
  | .optionally body, w, slots => w = [] ∧ slots = [] ∨ Grammar.Spells body w slots

def ValueGrammar.Spells : ValueGrammar → List Char → Captured → Prop
  | .scalar program, w, captured =>
    ∃ value, captured = .value value ∧ (program.scanner context).Reads w value
  | .reference type, w, captured =>
    ∃ id, captured = .value (.str (resourceUri type (String.ofList id))) ∧ w = Text.quoted id
  | .enum values, w, captured =>
    ∃ value ∈ values, captured = .value (.str value) ∧ w = value.toList
  | .compound type, w, captured => (compound type).Reads w captured
  | .record type identifier body, w, captured =>
    ∃ slots, captured = .record type identifier slots ∧ Grammar.Spells body w slots
  | .element type body, w, captured =>
    ∃ slots, captured = .ofElement type slots ∧ Grammar.Spells body w slots
  | .items separator nonempty item, w, captured =>
    captured = .array [] ∧ w = [] ∧ nonempty = false ∨
    ∃ text texts parts, captured = .array parts ∧
      w = text ++ texts.flatMap (separator ++ ·) ∧
      List.Forall₂ (ValueGrammar.Spells item) (text :: texts) parts

end

end

namespace Grammar

variable {context : ScanContext} {compound : String → Scanner Char Captured}

theorem advances_searched {p : Scanner Char Unit} (hp : Advances p) (rest passed : List Char)
    (offset : Nat) (alt : Option (Failure Char)) {found : List Char} {next : Cursor Char}
    (h : (searched p rest passed offset alt).result? = some (found, next)) :
    ∃ w, (⟨offset, rest⟩ : Cursor Char).Passes w next := by
  induction rest generalizing passed offset alt with
  | nil =>
    cases hr : read? p ⟨offset, []⟩ with
    | some x =>
      rw [searched_here hr] at h
      cases h
      exact hp _ _ _ hr
    | none =>
      rw [searched_end hr] at h
      cases h
  | cons t rest ih =>
    cases hr : read? p ⟨offset, t :: rest⟩ with
    | some x =>
      rw [searched_here hr] at h
      cases h
      exact hp _ _ _ hr
    | none =>
      obtain ⟨merged, hlater⟩ := searched_later hr
      rw [hlater] at h
      obtain ⟨w, h1, h2⟩ := ih (t :: passed) (offset + 1) _ h
      refine ⟨t :: w, congrArg (t :: ·) h1, ?_⟩
      rw [h2, List.length_cons]
      dsimp only
      omega

theorem advances_formula : Advances (do
    exactly Markdown.formulaOpen
    takeUntil (exactly Markdown.formulaClose)) :=
  (advances_exactly _).bind fun _ _ _ _ h => advances_searched (advances_exactly _) _ _ _ _ h

theorem advances_orderedMark : Advances orderedMarkScanner :=
  ((advances_satisfying _).many 1).bind fun _ => advances_exactly _

mutual

/-- What the scanner reads is one of the texts of the grammar, with its slots. -/
theorem scanner_spells (hc : ∀ type, Advances (compound type)) :
    ∀ (g : Grammar) (c next : Cursor Char) (slots : List Slot),
      read? (g.scanner context compound) c = some (slots, next) →
      ∃ w, c.Passes w next ∧ g.Spells context compound w slots
  | .text chars, c, next, slots, h => by
    rw [scanner, skip, read?_bind] at h
    obtain ⟨x, hx, h⟩ := Option.bind_eq_some_iff.mp h
    cases h
    exact ⟨chars, read?_exactly_some hx, rfl, rfl⟩
  | .seq first second, c, next, slots, h => by
    rw [scanner, read?_bind] at h
    obtain ⟨x, hx, h⟩ := Option.bind_eq_some_iff.mp h
    rw [read?_bind] at h
    obtain ⟨y, hy, h⟩ := Option.bind_eq_some_iff.mp h
    cases h
    obtain ⟨v₁, hv₁, h₁⟩ := scanner_spells hc first c x.2 x.1 hx
    obtain ⟨v₂, hv₂, h₂⟩ := scanner_spells hc second x.2 y.2 y.1 hy
    exact ⟨v₁ ++ v₂, hv₁.trans hv₂, v₁, v₂, x.1, y.1, rfl, rfl, h₁, h₂⟩
  | .either first second, c, next, slots, h => by
    rw [scanner, read?_orElse, Option.or_eq_some_iff] at h
    rcases h with h | ⟨_, h⟩
    · obtain ⟨w, hw, hs⟩ := scanner_spells hc first c next slots h
      exact ⟨w, hw, Or.inl hs⟩
    · obtain ⟨w, hw, hs⟩ := scanner_spells hc second c next slots h
      exact ⟨w, hw, Or.inr hs⟩
  | .flagged branch name flag, c, next, slots, h => by
    rw [scanner, read?_located] at h
    obtain ⟨x, hx, h⟩ := Option.map_eq_some_iff.mp h
    cases h
    obtain ⟨w, hw, hs⟩ := scanner_spells hc branch c x.2 x.1 hx
    exact ⟨w, hw, x.1, c.offset, rfl, hs⟩
  | .slot name value, c, next, slots, h => by
    rw [scanner, read?_located] at h
    obtain ⟨x, hx, h⟩ := Option.map_eq_some_iff.mp h
    cases h
    obtain ⟨w, hw, hs⟩ := valueScanner_spells hc value c x.2 x.1 hx
    exact ⟨w, hw, x.1, c.offset, rfl, hs⟩
  | .formula, c, next, slots, h => by
    rw [scanner, skip, read?_bind] at h
    obtain ⟨x, hx, h⟩ := Option.bind_eq_some_iff.mp h
    cases h
    obtain ⟨w, hw⟩ := advances_formula c x.1 x.2 hx
    exact ⟨w, hw, rfl⟩
  | .orderedMark, c, next, slots, h => by
    rw [scanner, skip, read?_bind] at h
    obtain ⟨x, hx, h⟩ := Option.bind_eq_some_iff.mp h
    cases h
    obtain ⟨w, hw⟩ := advances_orderedMark c x.1 x.2 hx
    exact ⟨w, hw, rfl⟩
  | .optionally body, c, next, slots, h => by
    rw [scanner, read?_bind, read?_optional] at h
    cases hr : read? (body.scanner context compound) c with
    | none =>
      rw [hr] at h
      cases h
      exact ⟨[], Cursor.Passes.refl c, Or.inl ⟨rfl, rfl⟩⟩
    | some x =>
      rw [hr] at h
      cases h
      obtain ⟨w, hw, hs⟩ := scanner_spells hc body c x.2 x.1 hr
      exact ⟨w, hw, Or.inr hs⟩

theorem valueScanner_spells (hc : ∀ type, Advances (compound type)) :
    ∀ (g : ValueGrammar) (c next : Cursor Char) (captured : Captured),
      read? (valueScanner context compound g) c = some (captured, next) →
      ∃ w, c.Passes w next ∧ g.Spells context compound w captured
  | .scalar program, c, next, captured, h => by
    rw [valueScanner, read?_bind] at h
    obtain ⟨x, hx, h⟩ := Option.bind_eq_some_iff.mp h
    cases h
    obtain ⟨w, hw, hs⟩ := (program.advances_scanner context).reads hx
    exact ⟨w, hw, x.1, rfl, hs⟩
  | .reference type, c, next, captured, h => by
    rw [valueScanner, read?_bind] at h
    obtain ⟨x, hx, h⟩ := Option.bind_eq_some_iff.mp h
    cases h
    exact ⟨_, ScalarProgram.read?_quotedScanner_passes hx, x.1, rfl, rfl⟩
  | .enum values, c, next, captured, h => by
    rw [valueScanner] at h
    obtain ⟨value, hlongest, hcap, hw⟩ := read?_enumChoices.mp h
    exact ⟨value.toList, hw, value, hlongest.mem, hcap, rfl⟩
  | .compound type, c, next, captured, h => by
    rw [valueScanner] at h
    exact (hc type).reads h
  | .record type identifier body, c, next, captured, h => by
    rw [valueScanner, read?_bind] at h
    obtain ⟨x, hx, h⟩ := Option.bind_eq_some_iff.mp h
    cases h
    obtain ⟨w, hw, hs⟩ := scanner_spells hc body c x.2 x.1 hx
    exact ⟨w, hw, x.1, rfl, hs⟩
  | .element type body, c, next, captured, h => by
    rw [valueScanner, read?_bind] at h
    obtain ⟨x, hx, h⟩ := Option.bind_eq_some_iff.mp h
    cases h
    obtain ⟨w, hw, hs⟩ := scanner_spells hc body c x.2 x.1 hx
    exact ⟨w, hw, x.1, rfl, hs⟩
  | .items separator nonempty item, c, next, captured, h => by
    rw [valueScanner, read?_bind] at h
    obtain ⟨x, hx, h⟩ := Option.bind_eq_some_iff.mp h
    cases h
    rcases read?_separated_passes (fun c a next => valueScanner_spells hc item c next a) hx with
      ⟨hn, hne, hcn⟩ | ⟨text, texts, hw, hall⟩
    · refine ⟨[], ?_, Or.inl ⟨by rw [hn], rfl, hne⟩⟩
      rw [hcn]
      exact Cursor.Passes.refl c
    · exact ⟨_, hw, Or.inr ⟨text, texts, x.1, rfl, rfl, hall⟩⟩

end

theorem advances_scanner (hc : ∀ type, Advances (compound type)) (g : Grammar) :
    Advances (g.scanner context compound) := by
  intro c slots next h
  obtain ⟨w, hw, _⟩ := scanner_spells hc g c next slots h
  exact ⟨w, hw⟩

theorem advances_valueScanner (hc : ∀ type, Advances (compound type)) (g : ValueGrammar) :
    Advances (valueScanner context compound g) := by
  intro c captured next h
  obtain ⟨w, hw, _⟩ := valueScanner_spells hc g c next captured h
  exact ⟨w, hw⟩

theorem advances_compoundScanner (compounds : Compounds) (fuel : Nat) (type : String) :
    Advances (compoundScanner context compounds fuel type) := by
  induction fuel generalizing type with
  | zero => rintro c a next ⟨⟩
  | succ fuel ih =>
    unfold compoundScanner
    cases compounds.lookup type with
    | none => rintro c a next ⟨⟩
    | some value => exact advances_valueScanner ih value

/-- A text is read as a whole where only blanks stand behind what is read. -/
theorem textScanner_iff {compounds : Compounds} {root : ValueGrammar} {text : List Char}
    {captured : Captured} : Scanner.run (textScanner context compounds root) text = .ok captured ↔
      ∃ next, read? (valueScanner context (compoundScanner context compounds (text.length + 1)) root)
        (Cursor.start text) = some (captured, next) ∧ Text.allBlank next.rest = true := by
  have hblank (rest : List Char) :
      (rest.dropWhile Text.isBlank).isEmpty = true ↔ Text.allBlank rest = true := by
    rw [List.isEmpty_iff, List.dropWhile_eq_nil_iff, Text.allBlank, List.all_eq_true]
  rw [run_eq_ok]
  change (∃ next, read? (do
      let captured ← valueScanner context (compoundScanner context compounds (text.length + 1)) root
      let _ ← many (satisfying Text.isBlank) 0
      endOfInput
      pure captured) (Cursor.start text) = some (captured, next)) ↔ _
  rw [read?_bind]
  cases read? (valueScanner context (compoundScanner context compounds (text.length + 1)) root)
    (Cursor.start text) with
  | none => simp
  | some x =>
    obtain ⟨found, ⟨offset, rest⟩⟩ := x
    simp only [Option.bind_some, read?_bind, read?_many_satisfying, Nat.not_lt_zero, if_false,
      read?_endOfInput, read?_pure, Option.some.injEq, Prod.mk.injEq]
    constructor
    · rintro ⟨next, h⟩
      split at h
      · rename_i hd
        cases h
        exact ⟨_, ⟨rfl, rfl⟩, (hblank rest).mp hd⟩
      · cases h
    · rintro ⟨_, ⟨rfl, rfl⟩, hb⟩
      rw [if_pos ((hblank rest).mpr hb)]
      exact ⟨_, rfl⟩

theorem spells_enclosed {before after w : List Char} {body : Grammar} {slots : List Slot}
    (h : (concat [.text before, body, .text after]).Spells context compound w slots) :
    ∃ v, w = before ++ v ++ after ∧ body.Spells context compound v slots := by
  simp only [concat, nothing, Spells] at h
  obtain ⟨_, _, _, _, rfl, rfl, ⟨rfl, rfl⟩, v, _, s, _, rfl, rfl, hv, _, _, _, _, rfl, rfl,
    ⟨rfl, rfl⟩, rfl, rfl⟩ := h
  exact ⟨v, by simp, by simpa using hv⟩

/-- Blocks at the start: the first one and the later ones, or only those if it may be left out. -/
theorem spells_assemble_first {separator : List Char} {g : Grammar} {elidable : Bool}
    {rest : List (Grammar × Bool)} {w : List Char} {slots : List Slot} :
    (Compiling.assemble separator ((g, elidable) :: rest)).1.Spells context compound w slots ↔
      (∃ v₁ v₂ slots₁ slots₂, w = v₁ ++ v₂ ∧ slots = slots₁ ++ slots₂ ∧
        g.Spells context compound v₁ slots₁ ∧
        (Compiling.assemble separator rest).2.Spells context compound v₂ slots₂) ∨
      elidable = true ∧ (Compiling.assemble separator rest).1.Spells context compound w slots := by
  cases elidable <;> simp [Compiling.assemble, Spells]

theorem spells_assemble_later {separator : List Char} {g : Grammar} {elidable : Bool}
    {rest : List (Grammar × Bool)} {w : List Char} {slots : List Slot} :
    (Compiling.assemble separator ((g, elidable) :: rest)).2.Spells context compound w slots ↔
      (∃ v₁ v₂ slots₁ slots₂, w = separator ++ (v₁ ++ v₂) ∧ slots = slots₁ ++ slots₂ ∧
        g.Spells context compound v₁ slots₁ ∧
        (Compiling.assemble separator rest).2.Spells context compound v₂ slots₂) ∨
      elidable = true ∧ (Compiling.assemble separator rest).2.Spells context compound w slots := by
  cases elidable <;> simp [Compiling.assemble, Spells]

end Grammar

end ClauseTemplates
