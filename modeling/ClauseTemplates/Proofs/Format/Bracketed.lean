import ClauseTemplates.Proofs.Format.Partial
import ClauseTemplates.Proofs.Text.Front
import Mathlib.Algebra.Order.BigOperators.Group.List

namespace ClauseTemplates.DateTimeFormat

/-- A field under its name in formats. -/
structure NamedField where
  name : List Char
  token : DateToken
  known : (name, token) ∈ fieldTokens

/-- A text that brackets can enclose. -/
structure Enclosed where
  text : List Char
  nonempty : text ≠ []
  unclosed : ']' ∉ text

/-- Fields with a text in brackets between any two of them. -/
structure Layout where
  first : NamedField
  rest : List (Enclosed × NamedField)

/-- The text without the opening brackets in front. -/
def withoutOpening (text : List Char) : List Char := text.dropWhile (· == '[')

/-- A text in brackets with the field behind it. -/
def enclosedSource (part : Enclosed × NamedField) : List Char :=
  '[' :: part.1.text ++ ']' :: part.2.name

namespace Layout

/-- The format as it is written. -/
def source (layout : Layout) : List Char :=
  layout.first.name ++ layout.rest.flatMap enclosedSource

def texts (layout : Layout) : List (List Char) := layout.rest.map (·.1.text)

def fields (layout : Layout) : List DateToken :=
  layout.first.token :: layout.rest.map (·.2.token)

/-- The fields and, between them, what is shown of the texts. -/
def tokens (layout : Layout) (shown : List Char → List Char) : List DateToken :=
  layout.first.token :: layout.rest.flatMap fun part =>
    [.literal (shown part.1.text), part.2.token]

/-- What is left of the fields and texts: texts lose the opening brackets in front, and those of
brackets alone are lost. -/
def compiled (layout : Layout) : List DateToken :=
  (layout.tokens withoutOpening).filter (· ≠ .literal [])

/-- The fields of a time with what is shown of the texts between them. -/
def written (layout : Layout) (shown : List Char → List Char) (c : LocalTime) (offset : Int) :
    List Char :=
  tokenText c offset layout.first.token ++ layout.rest.flatMap fun part =>
    shown part.1.text ++ tokenText c offset part.2.token

end Layout

/-! ### Reading a format -/

theorem known_fields : ∀ f ∈ fieldTokens, token? f.1 = some (f.2, []) ∧ f.1 ≠ [] ∧ '[' ∉ f.1 ∧
    f.2.isLiteral = false := by
  decide

theorem NamedField.isLiteral_token (f : NamedField) : f.token.isLiteral = false :=
  (known_fields _ f.known).2.2.2

theorem NamedField.token_ne (f : NamedField) (text : List Char) : f.token ≠ .literal text := by
  intro h
  have hliteral := f.isLiteral_token
  rw [h] at hliteral
  cases hliteral

theorem token?_of_head? {cs : List Char} (h : cs.head? ≠ some '[') :
    token? cs = fieldTokens.findSome? fun f =>
      (Text.dropStart? f.1 cs).map fun rest => (f.2, rest) := by
  unfold token?
  split
  · exact absurd rfl h
  · rfl

/-- A field ends where a bracket opens. -/
theorem token?_field (f : NamedField) {rest : List Char} (hrest : ∀ c ∈ rest.head?, c = '[') :
    token? (f.name ++ rest) = some (f.token, rest) := by
  obtain ⟨halone, hne, hbracket, -⟩ := known_fields _ f.known
  have hhead : ∀ behind, (f.name ++ behind).head? ≠ some '[' := by
    intro behind h
    rw [List.head?_append_of_ne_nil _ hne] at h
    exact hbracket (List.mem_of_mem_head? h)
  have hbehind : ∀ g ∈ fieldTokens, Text.dropStart? g.1 (f.name ++ rest) =
      (Text.dropStart? g.1 f.name).map (· ++ rest) := by
    intro g hg
    apply Text.dropStart?_behind
    intro c hc hmem
    rw [hrest c hc] at hmem
    exact (known_fields g hg).2.2.1 hmem
  rw [← List.append_nil f.name, token?_of_head? (hhead []), List.append_nil] at halone
  rw [token?_of_head? (hhead rest)]
  -- The same field is the first one to match, with or without the rest.
  obtain ⟨before, g, after, hsplit, hg, hnone⟩ := List.findSome?_eq_some_iff.mp halone
  have hmem : g ∈ fieldTokens := hsplit ▸ List.mem_append_right before List.mem_cons_self
  refine List.findSome?_eq_some_iff.mpr ⟨before, g, after, hsplit, ?_, fun x hx => ?_⟩
  · obtain ⟨behind, hdrop, heq⟩ := Option.map_eq_some_iff.mp hg
    obtain ⟨htoken, rfl⟩ := Prod.mk.inj heq
    rw [hbehind g hmem, hdrop, Option.map_some, Option.map_some, htoken, List.nil_append]
  · have hx' : x ∈ fieldTokens := hsplit ▸ List.mem_append_left _ hx
    rw [hbehind x hx', Option.map_eq_none_iff.mp (hnone x hx)]
    rfl

theorem token?_enclosed (s : Enclosed) (rest : List Char) :
    token? ('[' :: (s.text ++ ']' :: rest)) =
      some (.literal (withoutOpening s.text), rest) := by
  unfold token?
  simp only [Text.splitAt?_append s.unclosed]
  rfl

theorem tokensFrom_token {token : DateToken} {cs rest : List Char} (h : token? cs = some (token, rest))
    (hcs : cs ≠ []) (fuel : Nat) :
    tokensFrom (fuel + 1) [] cs = token :: tokensFrom fuel [] rest := by
  obtain ⟨c, cs, rfl⟩ := List.exists_cons_of_ne_nil hcs
  rw [tokensFrom, h]
  rfl

theorem head?_enclosedSource (parts : List (Enclosed × NamedField)) :
    ∀ c ∈ (parts.flatMap enclosedSource).head?, c = '[' := by
  cases parts with
  | nil => nofun
  | cons part parts =>
    rintro c ⟨⟩
    rfl

theorem tokensFrom_parts {parts : List (Enclosed × NamedField)} {fuel : Nat}
    (hfuel : (parts.flatMap enclosedSource).length < fuel) :
    tokensFrom fuel [] (parts.flatMap enclosedSource) =
      parts.flatMap fun part => [.literal (withoutOpening part.1.text), part.2.token] := by
  induction parts generalizing fuel with
  | nil =>
    obtain ⟨fuel, rfl⟩ := Nat.exists_eq_succ_of_ne_zero (Nat.ne_zero_of_lt hfuel)
    rfl
  | cons part parts ih =>
    obtain ⟨s, f⟩ := part
    have hname : f.name ++ parts.flatMap enclosedSource ≠ [] :=
      List.append_ne_nil_of_left_ne_nil (known_fields _ f.known).2.1 _
    have hsource : ((s, f) :: parts).flatMap enclosedSource =
        '[' :: (s.text ++ ']' :: (f.name ++ parts.flatMap enclosedSource)) := by
      simp [enclosedSource]
    have hlength := hfuel
    rw [hsource] at hlength
    simp only [List.length_cons, List.length_append] at hlength
    obtain ⟨fuel, rfl⟩ : ∃ n, fuel = n + 2 := ⟨fuel - 2, by omega⟩
    rw [hsource, tokensFrom_token (token?_enclosed s _) (by simp),
      tokensFrom_token (token?_field f (head?_enclosedSource parts)) hname,
      ih (by omega)]
    rfl

theorem withoutOpening_eq_self_iff {text : List Char} :
    withoutOpening text = text ↔ text.head? ≠ some '[' := by
  unfold withoutOpening
  cases text with
  | nil => simp
  | cons c text =>
    rw [List.dropWhile_cons, List.head?_cons, Ne, Option.some.injEq]
    by_cases h : c = '['
    · have hlength := (List.dropWhile_suffix (l := text) (· == '[')).length_le
      rw [if_pos (by simp [h])]
      refine iff_of_false (fun heq => ?_) (by simp [h])
      rw [heq, List.length_cons] at hlength
      omega
    · simp [h]

theorem length_withoutOpening_le (text : List Char) : (withoutOpening text).length ≤ text.length :=
  (List.dropWhile_suffix _).length_le

/-- Empty literals are written as nothing. -/
theorem flatMap_filter_literal (tokens : List DateToken) (c : LocalTime) (offset : Int) :
    (tokens.filter (· ≠ .literal [])).flatMap (tokenText c offset) =
      tokens.flatMap (tokenText c offset) := by
  induction tokens with
  | nil => rfl
  | cons token tokens ih =>
    by_cases h : token = .literal []
    · rw [List.filter_cons_of_neg (by simp [h]), ih, h]
      rfl
    · rw [List.filter_cons_of_pos (by simpa using h), List.flatMap_cons, List.flatMap_cons, ih]

namespace Layout

variable {layout : Layout}

theorem tokensOf_source : tokensOf layout.source = layout.compiled := by
  obtain ⟨first, parts⟩ := layout
  obtain ⟨-, hne, -, -⟩ := known_fields _ first.known
  have hlength : 0 < first.name.length := List.length_pos_of_ne_nil hne
  have hname : first.name ++ parts.flatMap enclosedSource ≠ [] :=
    List.append_ne_nil_of_left_ne_nil hne _
  unfold tokensOf source compiled tokens
  dsimp only
  rw [tokensFrom_token (token?_field first (head?_enclosedSource parts)) hname,
    tokensFrom_parts (by rw [List.length_append]; omega)]

theorem any_compiled {p : DateToken → Bool} (hp : ∀ text, p (.literal text) = false) :
    layout.compiled.any p = layout.fields.any p := by
  simp [compiled, tokens, fields, List.any_flatMap, List.any_map, hp, Function.comp_def,
    NamedField.token_ne]

theorem all_compiled : layout.compiled.all DateToken.isLiteral = false := by
  simp [compiled, tokens, NamedField.token_ne, NamedField.isLiteral_token]

/-- Only formats with a clock of twelve hours and no half of the day are refused. -/
theorem compile_source
    (hclock : layout.fields.any isHour12 = true → layout.fields.any isMeridiem = true) :
    compile (some layout.source) = .ok ⟨layout.compiled⟩ := by
  have hrefused : ¬ (layout.fields.any isHour12 && !layout.fields.any isMeridiem) = true := by
    intro h
    obtain ⟨hhour12, hmeridiem⟩ := Bool.and_eq_true_iff.mp h
    rw [hclock hhour12] at hmeridiem
    cases hmeridiem
  unfold compile
  dsimp only
  rw [Option.getD_some, tokensOf_source, all_compiled, any_compiled fun _ => rfl,
    any_compiled fun _ => rfl, if_neg Bool.false_ne_true, if_neg hrefused]

theorem tokens_congr {shown shown' : List Char → List Char}
    (h : ∀ text ∈ layout.texts, shown text = shown' text) :
    layout.tokens shown = layout.tokens shown' := by
  unfold tokens
  congr 1
  apply List.flatMap_congr
  intro part hpart
  rw [h _ (List.mem_map_of_mem hpart)]

theorem flatMap_tokens (shown : List Char → List Char) (c : LocalTime) (offset : Int) :
    (layout.tokens shown).flatMap (tokenText c offset) = layout.written shown c offset := by
  simp [tokens, written, List.flatMap_assoc, tokenText]

theorem written_eq_iff {c : LocalTime} {offset : Int} :
    layout.written withoutOpening c offset = layout.written id c offset ↔
      ∀ text ∈ layout.texts, text.head? ≠ some '[' := by
  constructor
  · intro h text htext
    obtain ⟨part, hpart, rfl⟩ := List.mem_map.mp htext
    rw [← withoutOpening_eq_self_iff]
    by_contra hne
    -- A text that loses brackets makes the whole shorter.
    have hshorter : (withoutOpening part.1.text).length < part.1.text.length :=
      lt_of_le_of_ne (length_withoutOpening_le _) fun heq =>
        hne ((List.dropWhile_suffix _).eq_of_length heq)
    have hlengths := congrArg List.length (List.append_cancel_left h)
    rw [List.length_flatMap, List.length_flatMap] at hlengths
    refine absurd hlengths (List.sum_lt_sum _ _ (fun other _ => ?_) ⟨part, hpart, ?_⟩).ne
    · have hle := length_withoutOpening_le other.1.text
      simpa using hle
    · simpa using hshorter
  · intro h
    rw [← flatMap_tokens, ← flatMap_tokens,
      tokens_congr fun text htext => withoutOpening_eq_self_iff.mpr (h text htext)]
    rfl

theorem not_mem_tokens_id : .literal [] ∉ layout.tokens id := by
  intro h
  rcases List.mem_cons.mp h with h | h
  · exact layout.first.token_ne [] h.symm
  · obtain ⟨part, -, hpart⟩ := List.mem_flatMap.mp h
    rcases List.mem_pair.mp hpart with h | h
    · exact part.1.nonempty (DateToken.literal.inj h).symm
    · exact part.2.token_ne [] h.symm

theorem compiled_eq_iff : layout.compiled = layout.tokens id ↔
    ∀ text ∈ layout.texts, text.head? ≠ some '[' := by
  constructor
  · intro h
    have hwritten := congrArg (List.flatMap (tokenText ⟨⟨1, 1, 1⟩, 0, 0, 0, 0⟩ 0)) h
    rw [compiled, flatMap_filter_literal, flatMap_tokens, flatMap_tokens] at hwritten
    exact written_eq_iff.mp hwritten
  · intro h
    have htokens : layout.tokens withoutOpening = layout.tokens id :=
      tokens_congr fun text htext => withoutOpening_eq_self_iff.mpr (h text htext)
    rw [compiled, htokens, List.filter_eq_self]
    intro token htoken
    rw [decide_eq_true_iff]
    rintro rfl
    exact not_mem_tokens_id htoken

end Layout

/-- A format of fields with texts in brackets between them has these fields and texts, and what it
writes of a time has each text as it is, if and only if no text begins with an opening bracket. Of
such a text the opening brackets in front are lost. -/
theorem compile_bracketed_iff (layout : Layout)
    (hclock : layout.fields.any isHour12 = true → layout.fields.any isMeridiem = true) :
    ∃ format, compile (some layout.source) = .ok format ∧ format.tokens = layout.compiled ∧
      (format.tokens = layout.tokens id ↔ ∀ text ∈ layout.texts, text.head? ≠ some '[') ∧
      ∀ (s : String) (t : Instant), Instant.read s.toList = .ok t →
        format.draft (.str s) = .ok (layout.written withoutOpening t.localTime t.offset) ∧
        (format.draft (.str s) = .ok (layout.written id t.localTime t.offset) ↔
          ∀ text ∈ layout.texts, text.head? ≠ some '[') := by
  refine ⟨_, Layout.compile_source hclock, rfl, Layout.compiled_eq_iff, fun s t hread => ?_⟩
  have hdraft : (DateTimeFormat.mk layout.compiled).draft (.str s) =
      .ok (layout.written withoutOpening t.localTime t.offset) := by
    rw [draft_str hread]
    dsimp only
    rw [Layout.compiled, flatMap_filter_literal, Layout.flatMap_tokens]
  refine ⟨hdraft, ?_⟩
  rw [hdraft, Except.ok.injEq, Layout.written_eq_iff]

/-- Of a text of brackets alone nothing is left. -/
example : compile (some "YYYY[[]MM".toList) = .ok ⟨[.fullYear, .month true]⟩ := by decide

namespace Meeting

def hour : NamedField := ⟨['h'], .hour12 false, by decide⟩

def halfOfDay : NamedField := ⟨['A'], .meridiem true, by decide⟩

def year : NamedField := ⟨"YYYY".toList, .fullYear, by decide⟩

/-- The first text holds names of fields and a bracket, and the second one begins with a bracket. -/
def layout : Layout :=
  ⟨hour, [(⟨" o'clock [MM".toList, by decide, by decide⟩, halfOfDay),
    (⟨"[in ".toList, by decide, by decide⟩, year)]⟩

/-- The bracket inside the first text is kept, and the one in front of the second text is lost. -/
theorem compile_bracketed_iff_meeting :
    layout.source = "h[ o'clock [MM]A[[in ]YYYY".toList ∧
      (layout.fields.any isHour12 = true ∧ layout.fields.any isMeridiem = true) ∧
      ∃ format, compile (some layout.source) = .ok format ∧
        format.tokens = [.hour12 false, .literal " o'clock [MM".toList, .meridiem true,
          .literal "in ".toList, .fullYear] ∧
        format.tokens ≠ layout.tokens id ∧
        ∀ (s : String) (t : Instant), Instant.read s.toList = .ok t →
          format.draft (.str s) ≠ .ok (layout.written id t.localTime t.offset) := by
  have hclock : layout.fields.any isHour12 = true ∧ layout.fields.any isMeridiem = true := by
    decide
  have hbracket : ¬ ∀ text ∈ layout.texts, text.head? ≠ some '[' := by decide
  obtain ⟨format, hformat, htokens, hiff, hdraft⟩ := compile_bracketed_iff layout fun _ => hclock.2
  refine ⟨by decide, hclock, format, hformat, htokens.trans (by decide), ?_, fun s t hread => ?_⟩
  · exact fun h => hbracket (hiff.mp h)
  · exact fun h => hbracket ((hdraft s t hread).2.mp h)

end Meeting

end ClauseTemplates.DateTimeFormat
