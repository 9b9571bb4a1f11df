import ClauseTemplates.Format.Monetary
import ClauseTemplates.Proofs.Format.Advances
import ClauseTemplates.Proofs.Format.Doubles
import ClauseTemplates.Proofs.Format.Fields
import ClauseTemplates.Proofs.Json.Fields
import Mathlib.Data.List.Forall2

namespace ClauseTemplates

open Scan Scanner

theorem mapM_eq_ok {ε α β : Type} {f : α → Except ε β} {as : List α} {bs : List β} :
    as.mapM f = .ok bs ↔ List.Forall₂ (fun a b => f a = .ok b) as bs := by
  induction as generalizing bs with
  | nil =>
    rw [List.mapM_nil, List.forall₂_nil_left_iff]
    constructor
    · rintro ⟨⟩
      rfl
    · rintro rfl
      rfl
  | cons a as ih =>
    rw [List.mapM_cons, bind_eq_ok]
    constructor
    · rintro ⟨b, hb, h⟩
      obtain ⟨later, hlater, h⟩ := bind_eq_ok.mp h
      cases h
      exact .cons hb (ih.mp hlater)
    · intro h
      cases h with
      | cons hb hlater => exact ⟨_, hb, bind_eq_ok.mpr ⟨_, ih.mpr hlater, rfl⟩⟩

namespace MoneyToken

/-- Literals are not empty, and amounts have a layout that can be read. -/
def WellFormed : MoneyToken → Prop
  | .literal text => text ≠ []
  | .amount format => ∃ layout, format = ⟨false, some layout⟩ ∧ layout.Sound
  | _ => True

/-- Whether the token is literal text that begins with a digit. -/
def beginsWithDigit : MoneyToken → Bool
  | .literal text => text.head?.any Char.isDigit
  | _ => false

end MoneyToken

namespace MonetaryFormat

/-- The amount does not stand before a literal that begins with a digit. -/
def Delimited (format : MonetaryFormat) : Prop :=
  format.tokens.IsChain fun token next => ¬ (isAmount token = true ∧ next.beginsWithDigit = true)

section

variable {source : Option (List Char)} {format : MonetaryFormat}

theorem wellFormed_token? {cs rest : List Char} {token : MoneyToken}
    (h : token? cs = some (.ok token, rest)) : token.WellFormed := by
  unfold token? at h
  split at h
  · cases h
    trivial
  · cases h
    trivial
  · obtain ⟨⟨pattern, behind⟩, -, h⟩ := Option.map_eq_some_iff.mp h
    have hdouble := (Prod.mk.inj h).1
    cases hformat : NumberFormat.double (some pattern) with
    | error e =>
      rw [hformat] at hdouble
      cases hdouble
    | ok number =>
      rw [hformat] at hdouble
      cases hdouble
      exact NumberFormat.double_eq_ok hformat

theorem wellFormed_withPending {pending : List Char} {tokens : List MoneyToken}
    (h : ∀ token ∈ tokens, token.WellFormed) :
    ∀ token ∈ withPending pending tokens, token.WellFormed := by
  unfold withPending
  split
  · exact h
  · rename_i hpending
    have hliteral : (MoneyToken.literal pending.reverse).WellFormed := by
      intro hnil
      exact hpending (by simpa using hnil)
    exact List.forall_mem_cons.mpr ⟨hliteral, h⟩

theorem wellFormed_tokensFrom {fuel : Nat} {pending cs : List Char} {tokens : List MoneyToken}
    (h : tokensFrom fuel pending cs = .ok tokens) : ∀ token ∈ tokens, token.WellFormed := by
  induction fuel generalizing pending cs tokens with
  | zero =>
    cases h
    exact wellFormed_withPending (by simp)
  | succ fuel ih =>
    cases cs with
    | nil =>
      cases h
      exact wellFormed_withPending (by simp)
    | cons c cs =>
      rw [tokensFrom] at h
      split at h
      · rename_i found rest hfound
        obtain ⟨token, hok, h⟩ := bind_eq_ok.mp h
        obtain ⟨later, hlater, h⟩ := bind_eq_ok.mp h
        cases h
        rw [hok] at hfound
        apply wellFormed_withPending
        exact List.forall_mem_cons.mpr ⟨wellFormed_token? hfound, ih hlater⟩
      · exact ih h

theorem compile_eq_ok (h : compile source = .ok format) :
    (∀ token ∈ format.tokens, token.WellFormed) ∧ (format.tokens.filter isAmount).length = 1 ∧
      format.tokens.any isCurrency = true := by
  unfold compile at h
  obtain ⟨tokens, htokens, h⟩ := bind_eq_ok.mp h
  dsimp only at h
  split at h
  · cases h
  · rename_i hamounts
    split at h
    · cases h
    · rename_i hcurrency
      cases h
      exact ⟨wellFormed_tokensFrom htokens, by simpa using hamounts, by simpa using hcurrency⟩

end

theorem apart_codes : Apart (currencyCodes.map fun code => (code.toList, code)) := by
  unfold Apart
  decide

theorem apart_symbols : Apart (currencySymbols.map fun (code, symbol) => (symbol.toList, code)) := by
  unfold Apart
  decide

theorem head_codes :
    ∀ code ∈ currencyCodes, code.toList.head?.any (fun d => !d.isDigit) = true := by
  decide

theorem head_symbols :
    ∀ x ∈ currencySymbols, x.2.toList.head?.any (fun d => !d.isDigit) = true := by
  decide

theorem mem_of_currencySymbol? {code symbol : String} (h : currencySymbol? code = some symbol) :
    (code, symbol) ∈ currencySymbols := by
  obtain ⟨before, behind, hsplit, -⟩ := List.lookup_eq_some_iff.mp h
  rw [hsplit]
  exact List.mem_append_right before List.mem_cons_self

section

variable {x w : Double} {code : String} {token : MoneyToken} {text : List Char}

/-- What a token reads of an amount in a currency. -/
def part (w : Double) (code : String) : MoneyToken → Part
  | .literal _ => .nothing
  | .amount _ => .amount (some w)
  | .code | .symbol => .currency code

theorem read?_tokenScanner (hcode : code ∈ currencyCodes) (htext : tokenText x code token = .ok text)
    {offset : Nat} {rest : List Char}
    (hamount : ∀ number, token = .amount number →
      read? number.doubleScanner ⟨offset, text ++ rest⟩ =
        some (some w, ⟨offset + text.length, rest⟩)) :
    read? (tokenScanner token) ⟨offset, text ++ rest⟩ =
      some (part w code token, ⟨offset + text.length, rest⟩) := by
  cases token with
  | literal shown =>
    cases htext
    unfold tokenScanner
    rw [read?_bind, read?_exactly]
    rfl
  | amount number =>
    unfold tokenScanner
    rw [read?_bind, hamount number rfl]
    rfl
  | code =>
    cases htext
    have hmem : (code.toList, code) ∈ currencyCodes.map fun code => (code.toList, code) :=
      List.mem_map_of_mem hcode
    unfold tokenScanner
    rw [read?_bind, read?_oneOf apart_codes hmem]
    rfl
  | symbol =>
    unfold tokenText at htext
    cases hsymbol : currencySymbol? code with
    | none =>
      rw [hsymbol] at htext
      cases htext
    | some symbol =>
      rw [hsymbol] at htext
      cases htext
      have hmem : (symbol.toList, code) ∈
          currencySymbols.map fun (code, symbol) => (symbol.toList, code) :=
        List.mem_map.mpr ⟨(code, symbol), mem_of_currencySymbol? hsymbol, rfl⟩
      unfold tokenScanner
      rw [read?_bind, read?_oneOf apart_symbols hmem]
      rfl

/-- A number is not continued by what the next token writes, unless this is a literal that begins
with a digit. -/
theorem noDigit_tokenText (hcode : code ∈ currencyCodes) (htext : tokenText x code token = .ok text)
    (hformed : token.WellFormed) (hamount : isAmount token = false)
    (hdigit : token.beginsWithDigit = false) (rest : List Char) :
    DateTimeFormat.NoDigit (text ++ rest) := by
  apply DateTimeFormat.noDigit_append
  cases token with
  | literal shown =>
    cases htext
    cases text with
    | nil => exact absurd rfl hformed
    | cons d text => simpa [MoneyToken.beginsWithDigit] using hdigit
  | amount number => cases hamount
  | code =>
    cases htext
    exact head_codes code hcode
  | symbol =>
    unfold tokenText at htext
    cases hsymbol : currencySymbol? code with
    | none =>
      rw [hsymbol] at htext
      cases htext
    | some symbol =>
      rw [hsymbol] at htext
      cases htext
      exact head_symbols _ (mem_of_currencySymbol? hsymbol)

/-- The tokens of a format read what they write, if the double that its amount reads is `w`. -/
theorem read?_partScanner {tokens : List MoneyToken} {texts : List (List Char)}
    (hcode : code ∈ currencyCodes)
    (htexts : List.Forall₂ (fun token text => tokenText x code token = .ok text) tokens texts)
    (hformed : ∀ token ∈ tokens, token.WellFormed) (hsingle : (tokens.filter isAmount).length ≤ 1)
    (hdelimited : Delimited ⟨tokens⟩)
    (hamount : ∀ number, .amount number ∈ tokens → ∀ rest, DateTimeFormat.NoDigit rest →
      ∀ offset, read? number.doubleScanner ⟨offset, number.writtenDouble x ++ rest⟩ =
        some (some w, ⟨offset + (number.writtenDouble x).length, rest⟩)) (offset : Nat) :
    read? (partScanner tokens) ⟨offset, texts.flatten⟩ =
      some (tokens.map (part w code), ⟨offset + texts.flatten.length, []⟩) := by
  induction htexts generalizing offset with
  | nil => rfl
  | @cons token text tokens texts htext htexts ih =>
    obtain ⟨htoken, hlater⟩ := List.forall_mem_cons.mp hformed
    have hfewer : (tokens.filter isAmount).length ≤ 1 := by
      have hsublist := ((List.sublist_cons_self token tokens).filter isAmount).length_le
      omega
    have hbehind : isAmount token = true → DateTimeFormat.NoDigit texts.flatten := by
      intro hnumber
      cases htexts with
      | nil => simp [DateTimeFormat.NoDigit]
      | @cons next shown tokens texts hshown htexts =>
        obtain ⟨hnext, -⟩ := List.isChain_cons_cons.mp hdelimited
        have hdigit : next.beginsWithDigit = false :=
          Bool.eq_false_of_not_eq_true fun h => hnext ⟨hnumber, h⟩
        have hother : isAmount next = false := by
          by_contra hsecond
          have hsecond : isAmount next = true := Bool.eq_true_of_not_eq_false hsecond
          rw [List.filter_cons_of_pos hnumber, List.filter_cons_of_pos hsecond] at hsingle
          simp at hsingle
        exact noDigit_tokenText hcode hshown (hlater next List.mem_cons_self) hother hdigit _
    have hfirst : read? (tokenScanner token) ⟨offset, text ++ texts.flatten⟩ =
        some (part w code token, ⟨offset + text.length, texts.flatten⟩) := by
      apply read?_tokenScanner hcode htext
      rintro number rfl
      cases htext
      exact hamount number List.mem_cons_self _ (hbehind rfl) offset
    have hrest := ih hlater hfewer (List.IsChain.tail hdelimited)
      (fun number hnumber => hamount number (List.mem_cons_of_mem token hnumber))
      (offset + text.length)
    unfold partScanner
    rw [List.flatten_cons, read?_bind, hfirst, Option.bind_some, read?_bind, hrest,
      Option.bind_some, List.length_append, Nat.add_assoc]
    rfl

end

section

variable {tokens : List MoneyToken} {parts : List Part} {w : Double} {code : String}

/-- The currency found so far, and the one that one more part names. -/
def currencyStep (found : Option String) (part : Part) : Except String (Option String) :=
  match part, found with
  | .currency code, some previous =>
    if previous = code then .ok found
    else .error ("currency " ++ code ++ " contradicts " ++ previous)
  | .currency code, none => .ok (some code)
  | _, found => .ok found

theorem currencyOf_eq (parts : List Part) : currencyOf parts = parts.foldlM currencyStep none := rfl

theorem foldlM_currencyStep (w : Double) (code : String) {found : Option String}
    (hfound : found = none ∨ found = some code) (tokens : List MoneyToken) :
    (tokens.map (part w code)).foldlM currencyStep found =
      .ok (if tokens.any isCurrency then some code else found) := by
  induction tokens generalizing found with
  | nil => rfl
  | cons token tokens ih =>
    rw [List.map_cons, List.foldlM_cons]
    have hnames : ∀ other, (other = none ∨ other = some code) →
        currencyStep other (.currency code) = .ok (some code) := by
      rintro other (rfl | rfl)
      · rfl
      · exact if_pos rfl
    cases token with
    | literal text => exact ih hfound
    | amount number => exact ih hfound
    | code =>
      change (currencyStep found (.currency code) >>= _) = _
      rw [hnames found hfound]
      exact (ih (.inr rfl)).trans (by simp [isCurrency])
    | symbol =>
      change (currencyStep found (.currency code) >>= _) = _
      rw [hnames found hfound]
      exact (ih (.inr rfl)).trans (by simp [isCurrency])

/-- The amount found so far, or that of one more part. -/
def amountStep (found : Option (Option Double)) (part : Part) : Option (Option Double) :=
  match part with
  | .amount x => some x
  | _ => found

theorem amountOf_eq (parts : List Part) : amountOf parts = parts.foldl amountStep none := rfl

theorem foldl_amountStep (w : Double) (code : String) (found : Option (Option Double))
    (tokens : List MoneyToken) :
    (tokens.map (part w code)).foldl amountStep found =
      if tokens.any isAmount then some (some w) else found := by
  induction tokens generalizing found with
  | nil => rfl
  | cons token tokens ih =>
    rw [List.map_cons, List.foldl_cons, ih, List.any_cons]
    cases token with
    | amount number => simp [isAmount, part, amountStep]
    | _ => simp [isAmount, part, amountStep]

theorem currencyStep_eq_ok {found next : Option String} {part : Part}
    (h : currencyStep found part = .ok next) :
    (∀ previous ∈ found, next = some previous) ∧
      (∀ other, part = .currency other → next = some other) ∧
      (next = found ∨ ∃ other, part = .currency other ∧ next = some other) := by
  cases part with
  | currency other =>
    cases found with
    | none =>
      cases h
      simp
    | some previous =>
      unfold currencyStep at h
      dsimp only at h
      split at h
      · cases h
        simp_all
      · cases h
  | _ =>
    cases h
    simp

theorem mem_of_foldlM {found : Option String}
    (h : parts.foldlM currencyStep found = .ok (some code)) :
    found = some code ∨ .currency code ∈ parts := by
  induction parts generalizing found with
  | nil =>
    cases h
    exact .inl rfl
  | cons part parts ih =>
    rw [List.foldlM_cons] at h
    obtain ⟨next, hstep, h⟩ := bind_eq_ok.mp h
    rcases ih h with rfl | hmem
    · obtain ⟨-, -, hsame | ⟨other, rfl, hother⟩⟩ := currencyStep_eq_ok hstep
      · exact .inl hsame.symm
      · cases hother
        exact .inr List.mem_cons_self
    · exact .inr (List.mem_cons_of_mem part hmem)

theorem eq_of_foldlM {found : Option String}
    (h : parts.foldlM currencyStep found = .ok (some code)) :
    (∀ previous ∈ found, previous = code) ∧ ∀ other, .currency other ∈ parts → other = code := by
  induction parts generalizing found with
  | nil =>
    cases h
    simp
  | cons part parts ih =>
    rw [List.foldlM_cons] at h
    obtain ⟨next, hstep, h⟩ := bind_eq_ok.mp h
    obtain ⟨hnext, hparts⟩ := ih h
    obtain ⟨hprevious, hother, -⟩ := currencyStep_eq_ok hstep
    refine ⟨fun previous hfound => hnext previous (hprevious previous hfound), fun other hmem => ?_⟩
    rcases List.mem_cons.mp hmem with rfl | hmem
    · exact hnext other (hother other rfl)
    · exact hparts other hmem

theorem mem_of_foldl {found : Option (Option Double)} {x : Option Double}
    (h : parts.foldl amountStep found = some x) : found = some x ∨ .amount x ∈ parts := by
  induction parts generalizing found with
  | nil => exact .inl h
  | cons part parts ih =>
    rcases ih h with hfound | hmem
    · cases part with
      | amount y =>
        cases hfound
        exact .inr List.mem_cons_self
      | _ => exact .inl hfound
    · exact .inr (List.mem_cons_of_mem part hmem)

end

/-- What a token can find in a text of at most some length. -/
def Finds (length : Nat) (token : MoneyToken) (part : Part) : Prop :=
  match token with
  | .literal _ => part = .nothing
  | .amount number => ∃ x cursor next, part = .amount x ∧ cursor.rest.length ≤ length ∧
      read? number.doubleScanner cursor = some (x, next)
  | .code => ∃ code ∈ currencyCodes, part = .currency code
  | .symbol => ∃ x ∈ currencySymbols, part = .currency x.1

section

variable {token : MoneyToken} {tokens : List MoneyToken} {part : Part} {parts : List Part}
  {cursor next : Cursor Char} {length : Nat} {code : String}

theorem finds_of_read (hlength : cursor.rest.length ≤ length)
    (h : read? (tokenScanner token) cursor = some (part, next)) : Finds length token part := by
  unfold tokenScanner at h
  cases token with
  | literal text =>
    rw [read?_bind] at h
    obtain ⟨y, -, h⟩ := Option.bind_eq_some_iff.mp h
    cases h
    rfl
  | amount number =>
    rw [read?_bind] at h
    obtain ⟨y, hy, h⟩ := Option.bind_eq_some_iff.mp h
    cases h
    exact ⟨_, _, _, rfl, hlength, hy⟩
  | code =>
    rw [read?_bind] at h
    obtain ⟨⟨other, behind⟩, hother, h⟩ := Option.bind_eq_some_iff.mp h
    cases h
    obtain ⟨text, hmem, -⟩ := read?_oneOf_mem hother
    obtain ⟨known, hknown, hsame⟩ := List.mem_map.mp hmem
    cases hsame
    exact ⟨_, hknown, rfl⟩
  | symbol =>
    rw [read?_bind] at h
    obtain ⟨⟨other, behind⟩, hother, h⟩ := Option.bind_eq_some_iff.mp h
    cases h
    obtain ⟨text, hmem, -⟩ := read?_oneOf_mem hother
    obtain ⟨known, hknown, hsame⟩ := List.mem_map.mp hmem
    cases hsame
    exact ⟨_, hknown, rfl⟩

/-- Each token finds a part, and each part is found by a token. -/
theorem finds_partScanner (hlength : cursor.rest.length ≤ length)
    (h : read? (partScanner tokens) cursor = some (parts, next)) :
    (∀ token ∈ tokens, ∃ part ∈ parts, Finds length token part) ∧
      ∀ part ∈ parts, ∃ token ∈ tokens, Finds length token part := by
  induction tokens generalizing parts cursor with
  | nil =>
    cases h
    simp
  | cons token tokens ih =>
    unfold partScanner at h
    rw [read?_bind] at h
    obtain ⟨⟨found, between⟩, hfound, h⟩ := Option.bind_eq_some_iff.mp h
    rw [read?_bind] at h
    obtain ⟨⟨later, last⟩, hlater, h⟩ := Option.bind_eq_some_iff.mp h
    cases h
    -- the tokens behind have no more text to read from
    obtain ⟨passed, hpassed, -⟩ := advances_tokenScanner token _ _ _ hfound
    have hrest := congrArg List.length hpassed
    rw [List.length_append] at hrest
    have hfirst := finds_of_read hlength hfound
    obtain ⟨htokens, hparts⟩ := ih (by dsimp only; omega) hlater
    refine ⟨List.forall_mem_cons.mpr ⟨⟨_, List.mem_cons_self, hfirst⟩, fun token htoken => ?_⟩,
      List.forall_mem_cons.mpr ⟨⟨_, List.mem_cons_self, hfirst⟩, fun part hpart => ?_⟩⟩
    · obtain ⟨part, hpart, h⟩ := htokens token htoken
      exact ⟨part, List.mem_cons_of_mem _ hpart, h⟩
    · obtain ⟨token, htoken, h⟩ := hparts part hpart
      exact ⟨token, List.mem_cons_of_mem _ htoken, h⟩

/-- A part names none but the known currencies. -/
theorem known_of_read (h : read? (partScanner tokens) cursor = some (parts, next))
    (hcode : .currency code ∈ parts) : code ∈ currencyCodes := by
  obtain ⟨token, -, hfinds⟩ := (finds_partScanner (Nat.le_refl cursor.rest.length) h).2 _ hcode
  cases token with
  | literal text => cases hfinds
  | amount number =>
    obtain ⟨x, before, behind, hsame, -⟩ := hfinds
    cases hsame
  | code =>
    obtain ⟨known, hknown, hsame⟩ := hfinds
    cases hsame
    exact hknown
  | symbol =>
    obtain ⟨known, hknown, hsame⟩ := hfinds
    cases hsame
    exact List.mem_append_left _ (List.mem_map_of_mem hknown)

end

section

variable {source : Option (List Char)} {format : MonetaryFormat} {value back : Json}
  {text : List Char} {code : String} {parts : List Part}

/-- The record of an amount in a currency. -/
def amountRecord (amount : Json) (code : String) : Json :=
  Json.record
    [("$class", .str monetaryAmount), ("doubleValue", amount), ("currencyCode", .str code)]

theorem get?_amountRecord (amount : Json) (code name : String) :
    (amountRecord amount code).get? name =
      if name = "currencyCode" then some (.str code)
      else if name = "doubleValue" then some amount
      else if name = "$class" then some (.str monetaryAmount) else none := by
  unfold amountRecord Json.record Json.get? Json.Fields.ofList
  simp only [List.foldl_cons, List.foldl_nil, Json.Fields.get?_insert, Json.Fields.get?_nil]

/-- An amount is made of the one number and the one currency that are found. -/
theorem assemble_parts (h : assemble parts = .ok back) :
    ∃ x code, back = amountRecord ((x.map Json.double).getD .null) code ∧ .amount x ∈ parts ∧
      .currency code ∈ parts ∧ ∀ other, .currency other ∈ parts → other = code := by
  unfold assemble at h
  obtain ⟨currency, hcurrency, h⟩ := bind_eq_ok.mp h
  split at h
  · cases h
  · cases h
  · rename_i x code hamount
    cases h
    rw [amountOf_eq] at hamount
    rw [currencyOf_eq] at hcurrency
    exact ⟨x, code, rfl, (mem_of_foldl hamount).resolve_left nofun,
      (mem_of_foldlM hcurrency).resolve_left nofun, (eq_of_foldlM hcurrency).2⟩

theorem assemble_eq_ok (h : assemble parts = .ok back) :
    ∃ amount code, back = amountRecord amount code ∧ .currency code ∈ parts := by
  obtain ⟨x, code, hback, -, hcode, -⟩ := assemble_parts h
  exact ⟨_, code, hback, hcode⟩

theorem assemble_map {tokens : List MoneyToken} (w : Double) (code : String)
    (hamount : tokens.any isAmount = true) (hcurrency : tokens.any isCurrency = true) :
    assemble (tokens.map (part w code)) = .ok (amountRecord (.double w) code) := by
  unfold assemble
  rw [currencyOf_eq, foldlM_currencyStep w code (.inl rfl), amountOf_eq, foldl_amountStep,
    if_pos hamount, if_pos hcurrency]
  rfl

theorem draft_eq_ok :
    format.draft value = .ok text ↔
      ∃ x code texts, (value.get? "doubleValue").bind Json.double? = some x ∧
        value.get? "currencyCode" = some (.str code) ∧
        List.Forall₂ (fun token text => tokenText x code token = .ok text) format.tokens texts ∧
        text = texts.flatten := by
  unfold draft
  constructor
  · intro h
    split at h
    · cases h
    · rename_i x hx
      split at h
      · cases h
      · rename_i code hcode
        obtain ⟨shown, hshown, hcode⟩ := Option.bind_eq_some_iff.mp hcode
        cases shown with
        | str s =>
          cases hcode
          obtain ⟨texts, htexts, h⟩ := bind_eq_ok.mp h
          cases h
          exact ⟨x, code, texts, hx, hshown, mapM_eq_ok.mp htexts, rfl⟩
        | _ => cases hcode
  · rintro ⟨x, code, texts, hx, hcode, htexts, rfl⟩
    rw [hx, hcode]
    exact bind_eq_ok.mpr ⟨texts, mapM_eq_ok.mpr htexts, rfl⟩

/-- One double stands for what the amount of a format writes of another one. -/
theorem exists_sameAmount {tokens : List MoneyToken} (hformed : ∀ token ∈ tokens, token.WellFormed)
    (hsingle : (tokens.filter isAmount).length = 1) (x : Double) :
    ∃ w, ∀ number, .amount number ∈ tokens → number.writtenDouble w = number.writtenDouble x ∧
      ∀ rest, DateTimeFormat.NoDigit rest → ∀ offset,
        read? number.doubleScanner ⟨offset, number.writtenDouble x ++ rest⟩ =
          some (some w, ⟨offset + (number.writtenDouble x).length, rest⟩) := by
  obtain ⟨token, hfilter⟩ := List.length_eq_one_iff.mp hsingle
  have hmem : token ∈ tokens ∧ isAmount token = true := by
    rw [← List.mem_filter, hfilter]
    exact List.mem_singleton_self token
  obtain ⟨htoken, hamount⟩ := hmem
  cases token with
  | amount number =>
    obtain ⟨layout, rfl, hlayout⟩ := hformed _ htoken
    obtain ⟨w, hsame, hread⟩ := NumberFormat.read?_writtenDouble hlayout x
    refine ⟨w, ?_⟩
    intro other hother
    have honly : .amount other ∈ tokens.filter isAmount := List.mem_filter.mpr ⟨hother, rfl⟩
    rw [hfilter] at honly
    cases List.mem_singleton.mp honly
    exact ⟨hsame, hread⟩
  | _ => cases hamount

theorem draft_amountRecord {x w : Double} {texts : List (List Char)}
    (hsame : ∀ number, .amount number ∈ format.tokens →
      number.writtenDouble w = number.writtenDouble x)
    (htexts : List.Forall₂ (fun token text => tokenText x code token = .ok text) format.tokens texts) :
    format.draft (amountRecord (.double w) code) = .ok texts.flatten := by
  have hall : ∀ token ∈ format.tokens, tokenText w code token = tokenText x code token := by
    intro token htoken
    cases token with
    | amount number => exact congrArg Except.ok (hsame number htoken)
    | _ => rfl
  have hagain : List.Forall₂ (fun token text => tokenText w code token = .ok text) format.tokens
      texts := by
    have hboth := (List.forall₂_and_left format.tokens texts).mpr ⟨hall, htexts⟩
    exact hboth.imp fun token text h => h.1.trans h.2
  refine draft_eq_ok.mpr ⟨w, code, texts, ?_, ?_, hagain, rfl⟩
  · rw [get?_amountRecord]
    rfl
  · rw [get?_amountRecord]
    rfl

/-- What is drafted for an amount of money is read back, as an amount in its currency that has the
same text, just when the currency is a known one: drafting writes the code of any other one too. -/
theorem redraft_amount_iff (hcompile : compile source = .ok format) (hdelimited : format.Delimited)
    (hdraft : format.draft value = .ok text) :
    (∃ back, Accepts format.scanner text back ∧
      back.get? "$class" = some (.str monetaryAmount) ∧
      back.get? "currencyCode" = value.get? "currencyCode" ∧ format.draft back = .ok text) ↔
    ∃ code ∈ currencyCodes, value.get? "currencyCode" = some (.str code) := by
  obtain ⟨hformed, hsingle, hcurrency⟩ := compile_eq_ok hcompile
  constructor
  · rintro ⟨back, haccepts, -, hsame, -⟩
    obtain ⟨offset, hread⟩ := accepts_iff.mp haccepts
    obtain ⟨parts, hparts, hassemble⟩ := read?_tryMap_eq_some.mp hread
    obtain ⟨amount, code, rfl, hcode⟩ := assemble_eq_ok hassemble
    refine ⟨code, known_of_read hparts hcode, ?_⟩
    rw [← hsame, get?_amountRecord]
    rfl
  · rintro ⟨code, hknown, hcode⟩
    obtain ⟨x, shown, texts, hx, hshown, htexts, rfl⟩ := draft_eq_ok.mp hdraft
    rw [hcode] at hshown
    cases hshown
    obtain ⟨w, hw⟩ := exists_sameAmount hformed hsingle x
    have hamount : format.tokens.any isAmount = true := by
      have hne : format.tokens.filter isAmount ≠ [] := List.ne_nil_of_length_eq_add_one hsingle
      obtain ⟨token, htoken⟩ := List.exists_mem_of_ne_nil _ hne
      exact List.any_eq_true.mpr ⟨token, List.mem_filter.mp htoken⟩
    have hread := read?_partScanner hknown htexts hformed (Nat.le_of_eq hsingle) hdelimited
      (fun number hnumber => (hw number hnumber).2) 0
    refine ⟨amountRecord (.double w) code, ?_, ?_, ?_, ?_⟩
    · exact accepts_iff.mpr ⟨_, read?_tryMap_eq_some.mpr
        ⟨_, hread, assemble_map w code hamount hcurrency⟩⟩
    · rw [get?_amountRecord]
      rfl
    · rw [get?_amountRecord, hcode]
      rfl
    · exact draft_amountRecord (fun number hnumber => (hw number hnumber).1) htexts

end

namespace Standard

def format : MonetaryFormat :=
  ⟨[.amount ⟨false, some ⟨some ',', some ⟨'.', 2⟩⟩⟩, .literal [' '], .code]⟩

def amount : Double := ⟨false, 3 * power 2 51, -52, by decide, by decide, by decide, by decide⟩

/-- The text of a known currency is read back. For any other one a text is drafted as well, but it
is not read. -/
theorem redraft_amount_iff_standard :
    compile none = .ok format ∧ format.Delimited ∧
      format.draft (amountRecord (.double amount) "USD") = .ok "1.50 USD".toList ∧
      format.draft (amountRecord (.double amount) "XYZ") = .ok "1.50 XYZ".toList ∧
      (∃ back, Accepts format.scanner "1.50 USD".toList back ∧
        back.get? "$class" = some (.str monetaryAmount) ∧
        back.get? "currencyCode" = (amountRecord (.double amount) "USD").get? "currencyCode" ∧
        format.draft back = .ok "1.50 USD".toList) ∧
      ¬ ∃ back, Accepts format.scanner "1.50 XYZ".toList back ∧
        back.get? "$class" = some (.str monetaryAmount) ∧
        back.get? "currencyCode" = (amountRecord (.double amount) "XYZ").get? "currencyCode" ∧
        format.draft back = .ok "1.50 XYZ".toList := by
  have hcompile : compile none = .ok format := rfl
  have hdelimited : format.Delimited := by unfold Delimited; decide
  have hknown : format.draft (amountRecord (.double amount) "USD") = .ok "1.50 USD".toList := by
    decide +kernel
  have hother : format.draft (amountRecord (.double amount) "XYZ") = .ok "1.50 XYZ".toList := by
    decide +kernel
  refine ⟨hcompile, hdelimited, hknown, hother, ?_, ?_⟩
  · rw [redraft_amount_iff hcompile hdelimited hknown]
    exact ⟨"USD", by decide, get?_amountRecord _ "USD" "currencyCode"⟩
  · rw [redraft_amount_iff hcompile hdelimited hother]
    rintro ⟨code, hcode, hshown⟩
    rw [get?_amountRecord] at hshown
    cases hshown
    exact absurd hcode (by decide)

end Standard

end MonetaryFormat

end ClauseTemplates
