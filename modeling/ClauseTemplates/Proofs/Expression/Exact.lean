import ClauseTemplates.Proofs.Expression.Sound

namespace ClauseTemplates.Expression

open Scan Scanner Reading

/-- The looseness of the loosest phrase that a mark cannot stand behind without being read on. -/
def Mark.reach : Mark → ℕ
  | .openParen => 0
  | .dot => 1
  | .openBracket => 1
  | .star => 2
  | .slash => 2
  | .percent => 2
  | .plus => 3
  | .minus => 3
  | .lt => 4
  | .le => 4
  | .gt => 4
  | .ge => 4
  | .eqEq => 5
  | .notEq => 5
  | .andAnd => 6
  | .orOr => 7
  | .question => 8
  | _ => 9

/-- Text that phrases up to a looseness end before. -/
def Closes (looseness : ℕ) (rest : List Token) : Prop :=
  ∀ m more, rest = .mark m :: more → looseness < Mark.reach m

section

variable {t : Tier} {m : Mark} {op : BinaryOp} {rest : List Token} {n k : ℕ}

theorem Closes.mono (h : Closes n rest) (hk : k ≤ n) : Closes k rest :=
  fun m more hm => Nat.lt_of_le_of_lt hk (h m more hm)

theorem closes_mark (h : n < Mark.reach m) (more : List Token) : Closes n (.mark m :: more) := by
  intro m' more' heq
  cases heq
  exact h

theorem closes_nil : Closes n [] := by
  intro m more h
  cases h

theorem Tier.reach_operator (h : t.operator? m = some op) : Mark.reach m = t.looseness := by
  cases t <;> cases m <;> simp_all [Tier.operator?, Mark.reach, Tier.looseness]

theorem read?_mark_closed (h : Closes n rest) (hm : Mark.reach m ≤ n) (offset : ℕ) :
    read? (mark m) ⟨offset, rest⟩ = none := by
  rw [read?_mark]
  cases rest with
  | nil => rfl
  | cons u more =>
    refine if_neg fun hu => ?_
    have := h m more (by rw [hu])
    omega

end

/-- Words of a language that are shorter than a bound. -/
def Within {α : Type} (n : ℕ) (P : List Token → α → Prop) (ts : List Token) (a : α) : Prop :=
  ts.length < n ∧ P ts a

theorem within_all {α : Type} {P : List Token → α → Prop} {texts : List (List Token)} {as : List α}
    {n : ℕ} (hall : List.Forall₂ P texts as) (hn : texts.flatten.length < n) :
    List.Forall₂ (Within n P) texts as := by
  induction hall with
  | nil => exact .nil
  | cons hx _ ih =>
    rw [List.flatten_cons, List.length_append] at hn
    exact .cons ⟨by omega, hx⟩ (ih (by omega))

theorem length_flatten_le {α : Type} (separator : List α) (texts : List (List α)) :
    texts.flatten.length ≤ (texts.flatMap (separator ++ ·)).length := by
  induction texts with
  | nil => exact Nat.le_refl _
  | cons text texts ih =>
    simp only [List.flatten_cons, List.flatMap_cons, List.length_append]
    omega

/-- Text that begins with a mark that closes brackets. -/
def AtClosing (rest : List Token) : Prop :=
  ∃ m more, (m = .closeParen ∨ m = .closeBracket) ∧ rest = .mark m :: more

theorem atClosing_paren (more : List Token) : AtClosing (.mark .closeParen :: more) :=
  ⟨_, more, .inl rfl, rfl⟩

theorem atClosing_bracket (more : List Token) : AtClosing (.mark .closeBracket :: more) :=
  ⟨_, more, .inr rfl, rfl⟩

/-- Nothing is read before a mark that closes brackets. -/
def Refuses {α : Type} (p : TokenScanner α) : Prop :=
  ∀ m, m = .closeParen ∨ m = .closeBracket → ∀ offset more, read? p ⟨offset, .mark m :: more⟩ = none

theorem refuses_leftChain {operand : TokenScanner Expression} (h : Refuses operand)
    (op : TokenScanner BinaryOp) : Refuses (leftChain operand op) := by
  intro m hm offset more
  rw [read?_leftChain, h m hm]
  rfl

theorem refuses_reader (expr : TokenScanner Expression) (ph : Phrase) : Refuses (ph.reader expr) := by
  have hatom : Refuses (atom expr) := by
    rintro m (rfl | rfl) offset more <;> rw [read?_atom]
  have haccessed : Refuses (postfixed expr) := by
    intro m hm offset more
    rw [read?_postfixed, hatom m hm]
    rfl
  cases ph with
  | atom => exact hatom
  | accessed => exact haccessed
  | unary =>
    intro m hm offset more
    have hsign : read? sign ⟨offset, .mark m :: more⟩ = none := by
      obtain rfl | rfl := hm <;> simp [sign, read?_mark]
    have hsigns : read? (many sign 0) ⟨offset, .mark m :: more⟩ = some ([], ⟨offset, .mark m :: more⟩) := by
      rw [read?_many, rounds?, hsign]
      rfl
    rw [Phrase.reader, read?_unary, hsigns, Option.bind_some, haccessed m hm]
    rfl
  | tier t =>
    rw [reader_tier]
    exact refuses_leftChain (refuses_reader expr t.operand) _
  | whole =>
    intro m hm offset more
    have hcondition := refuses_reader expr (.tier .disjunction) m hm offset more
    rw [Phrase.reader] at hcondition
    rw [Phrase.reader, read?_conditional, hcondition]
    rfl
termination_by ph.looseness
decreasing_by
  · decide
  · exact t.operand_tighter

theorem refuses_expression (fuel : ℕ) : Refuses (expression fuel) := by
  cases fuel with
  | zero =>
    intro m hm offset more
    rfl
  | succ fuel => exact refuses_reader (expression fuel) .whole

theorem complete_enclosed {α : Type} {p : TokenScanner α} {behind : List Token → Prop}
    {P : List Token → α → Prop} (hp : Complete p behind P) {opening closing : Mark}
    (hclosing : ∀ more, behind (.mark closing :: more)) :
    Complete (enclosed opening closing p) (fun _ => True) (Enclosed opening closing P) := by
  rintro _ a rest ⟨us, hus, rfl⟩ _ offset
  have hread := hp us a (.mark closing :: rest) hus (hclosing rest) (offset + 1)
  rw [List.cons_append, List.append_assoc, List.singleton_append, read?_enclosed, read?_mark_self,
    Option.bind_some, hread, Option.bind_some, read?_mark_self]
  simp [Nat.add_assoc, Nat.add_comm 1]

theorem within_enclosed {α : Type} {P : List Token → α → Prop} {opening closing : Mark} {n : ℕ}
    {ts : List Token} {a : α} (hn : ts.length ≤ n + 1) (h : Enclosed opening closing P ts a) :
    Enclosed opening closing (Within n P) ts a := by
  obtain ⟨us, hus, rfl⟩ := h
  simp only [List.length_cons, List.length_append] at hn
  exact ⟨us, ⟨by omega, hus⟩, rfl⟩

section

variable {expr : TokenScanner Expression} {n : ℕ}

/-- Expressions with commas between them are read up to where no more can follow. -/
theorem read?_each (hexpr : Complete expr (Closes 8) (Within n (Derives .whole))) {ts rest : List Token}
    {es : List Expression} (hts : ts.length < n) (h : DerivesEach ts es) (hrest : Closes 8 rest)
    (hstop : Stops expr (exactly [.mark .comma]) rest) (offset : ℕ) :
    ∃ first later next, es = first :: later ∧
      read? expr ⟨offset, ts ++ rest⟩ = some (first, next) ∧
      laterItems? expr (mark .comma) (next.rest.length + 1) next =
        (later, ⟨offset + ts.length, rest⟩) := by
  obtain ⟨us, first, texts, later, hfirst, hall, rfl, rfl⟩ := h.toList
  have hcomma : ∀ more, Closes 8 ([.mark .comma] ++ more) := closes_mark (by decide)
  have hbehind : Closes 8 (texts.flatMap ([.mark .comma] ++ ·) ++ rest) := by
    cases hall with
    | nil => exact hrest
    | cons _ _ =>
      rw [List.flatMap_cons, List.append_assoc, List.append_assoc]
      exact hcomma _
  rw [List.length_append] at hts
  have hflat := length_flatten_le [Token.mark .comma] texts
  have hshort : texts.flatten.length < n := by omega
  have hread := hexpr us first _ ⟨by omega, hfirst⟩ hbehind offset
  rw [← List.append_assoc] at hread
  have hlater := hexpr.later (List.cons_ne_nil _ _) hcomma hrest hstop (within_all hall hshort) _
    (offset + us.length) (Nat.lt_succ_self _)
  refine ⟨first, later, _, rfl, hread, ?_⟩
  rw [laterItems?_congr (read?_mark_exactly .comma), hlater, List.length_append, Nat.add_assoc]

theorem complete_listed (hexpr : Complete expr (Closes 8) (Within n (Derives .whole)))
    (hrefuses : Refuses expr) (trailing : Bool) :
    Complete (separated expr (mark .comma) false trailing) AtClosing (Within n (Listed trailing)) := by
  rintro ts es _ ⟨hts, h⟩ ⟨m, more, hm, rfl⟩ offset
  have hcomma : ∀ offset, read? (mark .comma) ⟨offset, .mark m :: more⟩ = none := by
    intro offset
    obtain rfl | rfl := hm <;> simp [read?_mark]
  have hcloses : Closes 8 (.mark m :: more) := closes_mark (by obtain rfl | rfl := hm <;> decide) more
  cases h with
  | none =>
    cases trailing <;>
      simp [read?_separated, read?_separated_trailing, hrefuses m hm]
  | each h =>
    have hstop : Stops expr (exactly [.mark .comma]) (.mark m :: more) := by
      intro offset between hb
      rw [← read?_mark_exactly, hcomma] at hb
      cases hb
    obtain ⟨first, later, next, rfl, hfirst, hlater⟩ := read?_each hexpr hts h hcloses hstop offset
    cases trailing with
    | false =>
      rw [read?_separated, hfirst]
      simp only [hlater]
    | true =>
      rw [read?_separated_trailing, hfirst]
      simp [hlater, hcomma]
  | @comma us es htrailing h =>
    subst htrailing
    have hstop : Stops expr (exactly [.mark .comma]) (.mark .comma :: .mark m :: more) := by
      intro offset between hb
      rw [← read?_mark_exactly, read?_mark_self] at hb
      cases hb
      exact hrefuses m hm _ _
    have hrest : Closes 8 (.mark .comma :: .mark m :: more) := closes_mark (by decide) _
    rw [List.length_append] at hts
    obtain ⟨first, later, next, rfl, hfirst, hlater⟩ :=
      read?_each hexpr (by omega) h hrest hstop offset
    rw [List.append_assoc, List.singleton_append, read?_separated_trailing, hfirst]
    simp [hlater, Nat.add_assoc]

/-- The kinds of atoms. -/
inductive Atom : List Token → Expression → Prop
  | literal {t : Token} {value : Json} : Literal t value → Atom [t] (.literal value)
  | ident (name : List Char) : Atom [.name name] (.ident (String.ofList name))
  | call (function : List Char) {us : List Token} {es : List Expression} :
      Enclosed .openParen .closeParen (Listed false) us es →
      Atom (.name function :: us) (.call (String.ofList function) es)
  | array {us : List Token} {es : List Expression} :
      Enclosed .openBracket .closeBracket (Listed true) us es → Atom us (.array es)
  | parenthesized {us : List Token} {e : Expression} :
      Enclosed .openParen .closeParen (Derives .whole) us e → Atom us e

theorem Derives.kind {ts : List Token} {e : Expression} (h : Derives .atom ts e) : Atom ts e := by
  cases h with
  | literal h => exact .literal h
  | ident name => exact .ident name
  | nullary function => exact .call function ⟨[], .none, rfl⟩
  | call function h => exact .call function ⟨_, .each h, rfl⟩
  | empty => exact .array ⟨[], .none, rfl⟩
  | array h => exact .array ⟨_, .each h, rfl⟩
  | @trailing us _ h => exact .array ⟨us ++ [.mark .comma], .comma rfl h, by simp⟩
  | parenthesized h => exact .parenthesized ⟨_, h, rfl⟩

variable {expr : TokenScanner Expression} {n : ℕ}

theorem complete_atom (hexpr : Complete expr (Closes 8) (Within n (Derives .whole)))
    (hrefuses : Refuses expr) : Complete (atom expr) (Closes 0) (Within (n + 1) (Derives .atom)) := by
  rintro ts e rest ⟨hts, h⟩ hrest offset
  have hkind := h.kind
  clear h
  rw [read?_atom]
  cases hkind with
  | literal h => cases h <;> simp_all
  | ident name =>
    have hnone : read? (arguments expr) ⟨offset + 1, rest⟩ = none := by
      rw [arguments, read?_enclosed, read?_mark_closed hrest (by decide)]
      rfl
    simp [hnone]
  | @call function us es h =>
    have hus : Enclosed .openParen .closeParen (Within n (Listed false)) us es := by
      refine within_enclosed ?_ h
      rw [List.length_cons] at hts
      omega
    have hread := complete_enclosed (complete_listed hexpr hrefuses false) atClosing_paren us es rest hus
      trivial (offset + 1)
    change read? (arguments expr) _ = _ at hread
    simp [hread, Nat.add_assoc, Nat.add_comm 1]
  | @array _ es h =>
    have hread := complete_enclosed (complete_listed hexpr hrefuses true) atClosing_bracket ts es rest
      (within_enclosed (Nat.le_of_lt hts) h) trivial offset
    obtain ⟨ws, _, rfl⟩ := h
    change read? (elements expr) _ = _ at hread
    exact congrArg (Option.map _) hread
  | parenthesized h =>
    have hread := complete_enclosed hexpr (closes_mark (by decide)) ts e rest
      (within_enclosed (Nat.le_of_lt hts) h) trivial offset
    obtain ⟨ws, _, rfl⟩ := h
    exact hread

theorem complete_access (hexpr : Complete expr (Closes 8) (Within n (Derives .whole))) :
    Complete (access expr) (fun _ => True) (Within (n + 1) Accessing) := by
  rintro ts key rest ⟨hts, h⟩ _ offset
  cases h with
  | member name => simp [access, Nat.add_assoc]
  | @index us key h =>
    have hclosing : ∀ more, Closes 8 (.mark .closeBracket :: more) := closes_mark (by decide)
    have hread := complete_enclosed hexpr hclosing _ key rest
      (within_enclosed (Nat.le_of_lt hts) ⟨us, h, rfl⟩) trivial offset
    rw [access, read?_orElse, read?_bind, read?_bind, hread, List.cons_append, read?_mark]
    rfl

theorem read?_access_closed {rest : List Token} (h : Closes 1 rest) (offset : ℕ) :
    read? (access expr) ⟨offset, rest⟩ = none := by
  rw [access, read?_orElse, read?_bind, read?_bind, read?_enclosed, read?_mark_closed h (by decide),
    read?_mark_closed h (by decide)]
  rfl

theorem complete_accessed (hexpr : Complete expr (Closes 8) (Within n (Derives .whole)))
    (hrefuses : Refuses expr) :
    Complete (postfixed expr) (Closes 1) (Within (n + 1) (Derives .accessed)) := by
  rintro ts e rest ⟨hts, h⟩ hrest offset
  obtain ⟨us, first, texts, keys, hfirst, hall, rfl, rfl⟩ := h.path
  have hbehind : Closes 0 (texts.flatten ++ rest) := by
    cases hall with
    | nil => exact hrest.mono (Nat.zero_le 1)
    | cons hx _ => cases hx <;> exact closes_mark (by decide) _
  rw [List.length_append] at hts
  have hatom := complete_atom hexpr hrefuses us first _ ⟨by omega, hfirst⟩ hbehind offset
  have hmany := (complete_access hexpr).many (fun w a h hw => by cases h.2 <;> cases hw)
    (fun _ _ _ _ => trivial) trivial (read?_access_closed hrest) (within_all hall (by omega))
    (offset + us.length)
  rw [List.append_assoc, read?_postfixed, hatom, Option.bind_some, hmany, Option.map_some,
    List.length_append, Nat.add_assoc]

theorem complete_sign : Complete sign (fun _ => True) Sign := by
  rintro ts wrap rest h _ offset
  cases h <;> simp [sign, read?_mark]

/-- Phrases that fields and items are taken of have no sign in front. -/
theorem read?_sign_accessed {ts : List Token} {e : Expression} (h : Derives .accessed ts e)
    (offset : ℕ) (rest : List Token) : read? sign ⟨offset, ts ++ rest⟩ = none := by
  obtain ⟨us, first, texts, keys, hfirst, _, rfl, rfl⟩ := h.path
  have hkind := hfirst.kind
  clear h hfirst
  cases hkind with
  | literal h => cases h <;> simp [sign, read?_mark]
  | parenthesized h =>
    obtain ⟨ws, _, rfl⟩ := h
    simp [sign, read?_mark]
  | array h =>
    obtain ⟨ws, _, rfl⟩ := h
    simp [sign, read?_mark]
  | _ => simp [sign, read?_mark]

theorem complete_unary (hexpr : Complete expr (Closes 8) (Within n (Derives .whole)))
    (hrefuses : Refuses expr) :
    Complete (unary expr) (Closes 1) (Within (n + 1) (Derives .unary)) := by
  rintro ts e rest ⟨hts, h⟩ hrest offset
  obtain ⟨us, operand, texts, wraps, hoperand, hall, rfl, rfl⟩ := h.signed
  rw [List.length_append] at hts
  have hstop : ∀ offset, read? sign ⟨offset, us ++ rest⟩ = none :=
    fun offset => read?_sign_accessed hoperand offset rest
  have hmany := complete_sign.many (fun w a h hw => by cases h <;> cases hw)
    (fun _ _ _ _ => trivial) trivial hstop hall offset
  have hread := complete_accessed hexpr hrefuses us operand rest ⟨by omega, hoperand⟩ hrest
    (offset + texts.flatten.length)
  rw [List.append_assoc, read?_unary, hmany, Option.bind_some, hread, Option.map_some,
    List.length_append, Nat.add_assoc]

theorem complete_operation {operand : TokenScanner Expression} (t : Tier)
    (hoperand : Complete operand (Closes t.operand.looseness) (Within (n + 1) (Derives t.operand))) :
    Complete (do pure (← t.operators, ← operand)) (Closes t.operand.looseness)
      (Within (n + 1) (Operation t)) := by
  rintro ts pair rest ⟨hts, h⟩ hrest offset
  obtain ⟨hop, hd⟩ := h
  rw [List.length_cons] at hts
  have hread := hoperand _ _ rest ⟨by omega, hd⟩ hrest (offset + 1)
  rw [List.cons_append, read?_bind, read?_operators]
  simp only [hop, Option.map_some, Option.bind_some, read?_bind, hread, read?_pure, List.length_cons]
  rw [Nat.add_right_comm, Nat.add_assoc]

theorem complete_tier {operand : TokenScanner Expression} (t : Tier)
    (hoperand : Complete operand (Closes t.operand.looseness) (Within (n + 1) (Derives t.operand))) :
    Complete (leftChain operand t.operators) (Closes t.looseness)
      (Within (n + 1) (Derives (.tier t))) := by
  rintro ts e rest ⟨hts, h⟩ hrest offset
  obtain ⟨us, first, texts, pairs, hfirst, hall, rfl, rfl⟩ := h.chain
  have htighter := t.operand_tighter
  have hstop : ∀ offset, read? (do pure (← t.operators, ← operand)) ⟨offset, rest⟩ = none := by
    intro offset
    have hnone : read? t.operators ⟨offset, rest⟩ = none := by
      rw [read?_operators]
      split
      · rename_i m more
        rw [Option.map_eq_none_iff, Option.eq_none_iff_forall_not_mem]
        intro op hop
        have hlt := hrest m more rfl
        rw [Tier.reach_operator hop] at hlt
        exact Nat.lt_irrefl _ hlt
      · rfl
    rw [read?_bind, hnone]
    rfl
  have hnext : ∀ w pair rest, Operation t w pair → Closes t.operand.looseness (w ++ rest) := by
    rintro _ _ rest ⟨hop, _⟩
    exact closes_mark (by rw [Tier.reach_operator hop]; exact htighter) _
  have hbehind : Closes t.operand.looseness (texts.flatten ++ rest) := by
    cases hall with
    | nil => exact hrest.mono (Nat.le_of_lt htighter)
    | cons hx _ =>
      rw [List.flatten_cons, List.append_assoc]
      exact hnext _ _ _ hx
  rw [List.length_append] at hts
  have hread := hoperand us first _ ⟨by omega, hfirst⟩ hbehind offset
  have hmany := (complete_operation t hoperand).many (fun w a h hw => by cases h.2; cases hw)
    (fun w a rest h => hnext w a rest h.2) (hrest.mono (Nat.le_of_lt htighter)) hstop
    (within_all hall (by omega)) (offset + us.length)
  rw [List.append_assoc, read?_leftChain, hread, Option.bind_some, hmany, Option.map_some,
    List.length_append, Nat.add_assoc]

/-- The phrases of the grammar are read before what they end before, if this is so of the shorter
expressions inside them. -/
theorem complete_reader (hexpr : Complete expr (Closes 8) (Within n (Derives .whole)))
    (hrefuses : Refuses expr) (ph : Phrase) :
    Complete (ph.reader expr) (Closes ph.looseness) (Within (n + 1) (Derives ph)) := by
  cases ph with
  | atom => exact complete_atom hexpr hrefuses
  | accessed => exact complete_accessed hexpr hrefuses
  | unary => exact complete_unary hexpr hrefuses
  | tier t =>
    rw [reader_tier]
    exact complete_tier t (complete_reader hexpr hrefuses t.operand)
  | whole =>
    rintro ts e rest ⟨hts, h⟩ hrest offset
    have hcondition := complete_reader hexpr hrefuses (.tier .disjunction)
    change Complete (disjunction expr) (Closes 7) _ at hcondition
    rw [Phrase.reader, read?_conditional]
    cases h with
    | plain h =>
      have hnone : read? (branches expr) ⟨offset + ts.length, rest⟩ = none := by
        rw [branches, read?_bind, read?_mark_closed hrest (by decide)]
        rfl
      rw [hcondition ts e rest ⟨hts, h⟩ (hrest.mono (by decide)) offset]
      simp [hnone]
    | @cond ts us vs c a b hc ha hb =>
      simp only [List.length_append, List.length_cons] at hts
      have hreadc := hcondition ts c (.mark .question :: (us ++ .mark .colon :: (vs ++ rest)))
        ⟨by omega, hc⟩ (closes_mark (by decide) _) offset
      have hreada := hexpr us a (.mark .colon :: (vs ++ rest)) ⟨by omega, ha⟩
        (closes_mark (by decide) _) (offset + ts.length + 1)
      have hreadb := hexpr vs b rest ⟨by omega, hb⟩ hrest (offset + ts.length + 1 + us.length + 1)
      rw [List.append_assoc, List.cons_append, List.append_assoc, List.cons_append, hreadc]
      simp only [Option.map_some, branches, read?_bind, read?_mark_self, Option.bind_some, hreada,
        hreadb, read?_pure]
      simp only [List.length_append, List.length_cons]
      congr 3
      omega
termination_by ph.looseness
decreasing_by
  · decide
  · exact t.operand_tighter

end

theorem complete_expression (fuel : ℕ) :
    Complete (expression fuel) (Closes 8) (Within fuel (Derives .whole)) := by
  induction fuel with
  | zero =>
    rintro ts e rest ⟨hts, _⟩
    omega
  | succ fuel ih => exact complete_reader ih (refuses_expression fuel) .whole

theorem read?_expression {tokens : List Token} {e : Expression} (h : Derives .whole tokens e) :
    read? (expression (tokens.length + 1)) (Cursor.start tokens) = some (e, ⟨tokens.length, []⟩) := by
  have hread := complete_expression (tokens.length + 1) tokens e [] ⟨Nat.lt_succ_self _, h⟩ closes_nil 0
  rwa [List.append_nil, Nat.zero_add] at hread

/-- A list of tokens is an expression if and only if the grammar derives it, and it derives no more
than one expression from a list. -/
theorem ofTokens_exact (tokens : List Token) :
    (∀ e, ofTokens tokens = .ok e ↔ Derives .whole tokens e) ∧
      ∀ e e', Derives .whole tokens e → Derives .whole tokens e' → e = e' := by
  refine ⟨fun e => ⟨fun h => ?_, fun h => ?_⟩, fun e e' h h' => ?_⟩
  · obtain ⟨next, hread⟩ := run_eq_ok.mp h
    rw [read?_bind] at hread
    obtain ⟨x, hx, hread⟩ := Option.bind_eq_some_iff.mp hread
    rw [read?_bind, read?_endOfInput] at hread
    obtain ⟨y, hy, hread⟩ := Option.bind_eq_some_iff.mp hread
    cases hread
    split at hy
    · rename_i hend
      obtain ⟨w, hw, hd⟩ := sound_expression _ _ _ _ hx
      have htokens := hw.1
      rw [List.isEmpty_iff.mp hend, List.append_nil] at htokens
      change tokens = w at htokens
      rwa [htokens]
    · cases hy
  · refine run_eq_ok.mpr ⟨⟨tokens.length, []⟩, ?_⟩
    rw [read?_bind, read?_expression h, Option.bind_some, read?_bind, read?_endOfInput]
    rfl
  · have hread := read?_expression h
    rw [read?_expression h'] at hread
    cases hread
    rfl

end ClauseTemplates.Expression
