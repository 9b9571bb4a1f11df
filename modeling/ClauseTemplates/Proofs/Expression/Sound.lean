import ClauseTemplates.Proofs.Expression.Reading

namespace ClauseTemplates.Expression

open Scan Scanner Reading

/-- Expressions, if any, with commas between them, and one more behind them where that is allowed. -/
inductive Listed (trailing : Bool) : List Token → List Expression → Prop
  | none : Listed trailing [] []
  | each {us : List Token} {es : List Expression} : DerivesEach us es → Listed trailing us es
  | comma {us : List Token} {es : List Expression} : trailing = true → DerivesEach us es →
      Listed trailing (us ++ [.mark .comma]) es

/-- Text between two marks. -/
def Enclosed (opening closing : Mark) {α : Type} (P : List Token → α → Prop) (ts : List Token)
    (a : α) : Prop :=
  ∃ us, P us a ∧ ts = .mark opening :: (us ++ [.mark closing])

variable {expr : TokenScanner Expression} {ts : List Token}

theorem Derives.applied (function : List Char) {es : List Expression}
    (h : Enclosed .openParen .closeParen (Listed false) ts es) :
    Derives .atom (.name function :: ts) (.call (String.ofList function) es) := by
  obtain ⟨us, hus, rfl⟩ := h
  cases hus with
  | none => exact .nullary function
  | each h => exact .call function h
  | comma hfalse _ => cases hfalse

theorem Derives.bracketed {es : List Expression}
    (h : Enclosed .openBracket .closeBracket (Listed true) ts es) : Derives .atom ts (.array es) := by
  obtain ⟨us, hus, rfl⟩ := h
  cases hus with
  | none => exact .empty
  | each h => exact .array h
  | comma _ h =>
    rw [List.append_assoc]
    exact .trailing h

theorem passes_mark {m : Mark} {c next : Cursor Token} {u : Unit}
    (h : read? (mark m) c = some (u, next)) : c.Passes [.mark m] next := by
  rw [read?_mark_exactly] at h
  exact read?_exactly_some h

theorem passes_name {c next : Cursor Token} {text : String} (h : read? name c = some (text, next)) :
    ∃ cs, text = String.ofList cs ∧ c.Passes [.name cs] next := by
  obtain ⟨offset, rest⟩ := c
  rw [name, read?_token] at h
  cases rest with
  | nil => cases h
  | cons t more =>
    cases t with
    | name cs =>
      cases h
      exact ⟨cs, rfl, rfl, rfl⟩
    | _ => cases h

theorem sound_enclosed {α : Type} {p : TokenScanner α} {P : List Token → α → Prop} (hp : Sound p P)
    (opening closing : Mark) : Sound (enclosed opening closing p) (Enclosed opening closing P) := by
  intro c a next h
  obtain ⟨offset, rest⟩ := c
  rw [read?_enclosed] at h
  obtain ⟨x, hx, h⟩ := Option.bind_eq_some_iff.mp h
  obtain ⟨y, hy, h⟩ := Option.bind_eq_some_iff.mp h
  obtain ⟨z, hz, h⟩ := Option.map_eq_some_iff.mp h
  cases h
  obtain ⟨us, hus, hP⟩ := hp x.2 y.1 y.2 hy
  have hpass := ((passes_mark hx).trans hus).trans (passes_mark hz)
  exact ⟨_, hpass, us, hP, by simp⟩

theorem sound_listed (hexpr : Sound expr (Derives .whole)) (trailing : Bool) :
    Sound (separated expr (mark .comma) false trailing) (Listed trailing) := by
  intro c es next h
  cases hfirst : read? expr c with
  | none =>
    have hnone : es = [] ∧ next = c := by
      cases trailing <;> simpa [read?_separated, read?_separated_trailing, hfirst, eq_comm] using h
    obtain ⟨rfl, rfl⟩ := hnone
    exact ⟨[], Cursor.Passes.refl _, .none⟩
  | some x =>
    obtain ⟨us, hus, hd⟩ := hexpr c x.1 x.2 hfirst
    obtain ⟨⟨later, last⟩, hlast⟩ : ∃ y, laterItems? expr (mark .comma) (x.2.rest.length + 1) x.2 = y :=
      ⟨_, rfl⟩
    rw [laterItems?_congr (read?_mark_exactly .comma)] at hlast
    obtain ⟨texts, htexts, hall⟩ := laterItems?_passes hexpr hlast
    rw [← laterItems?_congr (read?_mark_exactly .comma)] at hlast
    have heach := DerivesEach.ofList hall hd
    have hpass := hus.trans htexts
    cases trailing with
    | false =>
      rw [read?_separated] at h
      simp only [hfirst, hlast] at h
      cases h
      exact ⟨_, hpass, .each heach⟩
    | true =>
      rw [read?_separated_trailing] at h
      simp only [hfirst, hlast] at h
      cases hcomma : read? (mark .comma) last with
      | none =>
        rw [hcomma] at h
        cases h
        exact ⟨_, hpass, .each heach⟩
      | some z =>
        rw [hcomma] at h
        cases h
        exact ⟨_, hpass.trans (passes_mark hcomma), .comma rfl heach⟩

theorem sound_atom (hexpr : Sound expr (Derives .whole)) : Sound (atom expr) (Derives .atom) := by
  intro c e next h
  obtain ⟨offset, rest⟩ := c
  rw [read?_atom] at h
  cases rest with
  | nil => cases h
  | cons t more =>
    have hpass := Cursor.passes_mk offset [t] more
    cases t with
    | number text =>
      obtain ⟨value, hvalue, h⟩ := Option.map_eq_some_iff.mp h
      cases h
      exact ⟨_, hpass, .literal (.number hvalue)⟩
    | str text =>
      cases h
      exact ⟨_, hpass, .literal (.str text)⟩
    | trueWord =>
      cases h
      exact ⟨_, hpass, .literal .true⟩
    | falseWord =>
      cases h
      exact ⟨_, hpass, .literal .false⟩
    | nullWord =>
      cases h
      exact ⟨_, hpass, .literal .null⟩
    | name function =>
      dsimp only at h
      cases hcall : read? (arguments expr) ⟨offset + 1, more⟩ with
      | none =>
        rw [hcall] at h
        cases h
        exact ⟨_, hpass, .ident function⟩
      | some x =>
        rw [hcall] at h
        cases h
        obtain ⟨us, hus, hargs⟩ := sound_enclosed (sound_listed hexpr false) _ _ _ _ _ hcall
        exact ⟨_, hpass.trans hus, .applied function hargs⟩
    | mark m =>
      cases m with
      | openBracket =>
        obtain ⟨x, hx, h⟩ := Option.map_eq_some_iff.mp h
        cases h
        obtain ⟨us, hus, hitems⟩ := sound_enclosed (sound_listed hexpr true) _ _ _ _ _ hx
        exact ⟨us, hus, .bracketed hitems⟩
      | openParen =>
        obtain ⟨us, hus, ws, hw, rfl⟩ := sound_enclosed hexpr _ _ _ _ _ h
        exact ⟨_, hus, .parenthesized hw⟩
      | _ => cases h

theorem sound_access (hexpr : Sound expr (Derives .whole)) : Sound (access expr) Accessing := by
  intro c key next h
  rw [access, read?_orElse, Option.or_eq_some_iff] at h
  obtain h | ⟨_, h⟩ := h
  · rw [read?_bind] at h
    obtain ⟨x, hx, h⟩ := Option.bind_eq_some_iff.mp h
    rw [read?_bind] at h
    obtain ⟨y, hy, h⟩ := Option.bind_eq_some_iff.mp h
    cases h
    obtain ⟨text, hname, hpass⟩ := passes_name hy
    rw [hname]
    exact ⟨_, (passes_mark hx).trans hpass, .member text⟩
  · rw [read?_bind] at h
    obtain ⟨x, hx, h⟩ := Option.bind_eq_some_iff.mp h
    cases h
    obtain ⟨us, hus, ws, hw, rfl⟩ := sound_enclosed hexpr _ _ _ _ _ hx
    exact ⟨_, hus, .index hw⟩

theorem sound_sign : Sound sign Sign := by
  intro c wrap next h
  rw [sign, read?_orElse, Option.or_eq_some_iff, read?_bind, read?_bind] at h
  obtain h | ⟨_, h⟩ := h
  · obtain ⟨x, hx, h⟩ := Option.bind_eq_some_iff.mp h
    cases h
    exact ⟨_, passes_mark hx, .neg⟩
  · obtain ⟨x, hx, h⟩ := Option.bind_eq_some_iff.mp h
    cases h
    exact ⟨_, passes_mark hx, .not⟩

theorem sound_accessed (hexpr : Sound expr (Derives .whole)) :
    Sound (postfixed expr) (Derives .accessed) := by
  intro c e next h
  rw [read?_postfixed] at h
  obtain ⟨x, hx, h⟩ := Option.bind_eq_some_iff.mp h
  obtain ⟨y, hy, h⟩ := Option.map_eq_some_iff.mp h
  cases h
  obtain ⟨us, hus, hd⟩ := sound_atom hexpr c x.1 x.2 hx
  obtain ⟨texts, htexts, hall⟩ := (sound_access hexpr).many 0 hy
  exact ⟨_, hus.trans htexts, (Derives.direct hd).accesses hall⟩

theorem sound_unary (hexpr : Sound expr (Derives .whole)) : Sound (unary expr) (Derives .unary) := by
  intro c e next h
  rw [read?_unary] at h
  obtain ⟨x, hx, h⟩ := Option.bind_eq_some_iff.mp h
  obtain ⟨y, hy, h⟩ := Option.map_eq_some_iff.mp h
  cases h
  obtain ⟨texts, htexts, hall⟩ := sound_sign.many 0 hx
  obtain ⟨us, hus, hd⟩ := sound_accessed hexpr x.2 y.1 y.2 hy
  exact ⟨_, htexts.trans hus, hd.signs hall⟩

theorem sound_operation {operand : TokenScanner Expression} (t : Tier)
    (hoperand : Sound operand (Derives t.operand)) :
    Sound (do pure (← t.operators, ← operand)) (Operation t) := by
  intro c pair next h
  obtain ⟨offset, rest⟩ := c
  rw [read?_bind] at h
  obtain ⟨x, hx, h⟩ := Option.bind_eq_some_iff.mp h
  rw [read?_bind] at h
  obtain ⟨y, hy, h⟩ := Option.bind_eq_some_iff.mp h
  cases h
  obtain ⟨us, hus, hd⟩ := hoperand x.2 y.1 y.2 hy
  rw [read?_operators] at hx
  split at hx
  · rename_i m more
    obtain ⟨op, hop, hx⟩ := Option.map_eq_some_iff.mp hx
    cases hx
    exact ⟨_, (Cursor.passes_mk offset [Token.mark m] more).trans hus, .mk hop hd⟩
  · cases hx

theorem sound_tier {operand : TokenScanner Expression} (t : Tier)
    (hoperand : Sound operand (Derives t.operand)) :
    Sound (leftChain operand t.operators) (Derives (.tier t)) := by
  intro c e next h
  rw [read?_leftChain] at h
  obtain ⟨x, hx, h⟩ := Option.bind_eq_some_iff.mp h
  obtain ⟨y, hy, h⟩ := Option.map_eq_some_iff.mp h
  cases h
  obtain ⟨us, hus, hd⟩ := hoperand c x.1 x.2 hx
  obtain ⟨texts, htexts, hall⟩ := (sound_operation t hoperand).many 0 hy
  exact ⟨_, hus.trans htexts, (Derives.operand hd).operations hall⟩

theorem sound_branches (hexpr : Sound expr (Derives .whole)) :
    Sound (branches expr) fun ts x => ∃ us vs, Derives .whole us x.1 ∧ Derives .whole vs x.2 ∧
      ts = .mark .question :: (us ++ .mark .colon :: vs) := by
  intro c x next h
  simp only [branches, read?_bind] at h
  obtain ⟨a, ha, h⟩ := Option.bind_eq_some_iff.mp h
  obtain ⟨b, hb, h⟩ := Option.bind_eq_some_iff.mp h
  obtain ⟨d, hd, h⟩ := Option.bind_eq_some_iff.mp h
  obtain ⟨e, he, h⟩ := Option.bind_eq_some_iff.mp h
  cases h
  obtain ⟨us, hus, hu⟩ := hexpr _ _ _ hb
  obtain ⟨vs, hvs, hv⟩ := hexpr _ _ _ he
  have hpass := (((passes_mark ha).trans hus).trans (passes_mark hd)).trans hvs
  exact ⟨_, hpass, us, vs, hu, hv, by simp⟩

/-- The phrases that are read are those of the grammar, if this is so of the expressions inside them. -/
theorem sound_reader (hexpr : Sound expr (Derives .whole)) (ph : Phrase) :
    Sound (ph.reader expr) (Derives ph) := by
  cases ph with
  | atom => exact sound_atom hexpr
  | accessed => exact sound_accessed hexpr
  | unary => exact sound_unary hexpr
  | tier t =>
    rw [reader_tier]
    exact sound_tier t (sound_reader hexpr t.operand)
  | whole =>
    intro c e next h
    rw [Phrase.reader, read?_conditional] at h
    obtain ⟨x, hx, h⟩ := Option.map_eq_some_iff.mp h
    obtain ⟨ts, hts, hd⟩ := sound_reader hexpr (.tier .disjunction) c x.1 x.2 hx
    cases hb : read? (branches expr) x.2 with
    | none =>
      rw [hb] at h
      cases h
      exact ⟨ts, hts, .plain hd⟩
    | some y =>
      rw [hb] at h
      cases h
      obtain ⟨_, hw, us, vs, hu, hv, rfl⟩ := sound_branches hexpr _ _ _ hb
      exact ⟨_, hts.trans hw, .cond hd hu hv⟩
termination_by ph.looseness
decreasing_by
  · decide
  · exact t.operand_tighter

theorem sound_expression (fuel : ℕ) : Sound (expression fuel) (Derives .whole) := by
  induction fuel with
  | zero =>
    intro c e next h
    cases h
  | succ fuel ih => exact sound_reader ih .whole

end ClauseTemplates.Expression
