import ClauseTemplates.Format.DateTime
import ClauseTemplates.Proofs.Calendar.Instants
import ClauseTemplates.Proofs.Format.Grouped
import Mathlib.Data.List.Chain

namespace ClauseTemplates

open Scan Scanner

namespace Scanner

variable {τ α : Type} [DecidableEq τ]

/-- No text begins another one. -/
def Apart (choices : List (List τ × α)) : Prop :=
  choices.Pairwise fun x y => ¬ x.1 <+: y.1 ∧ ¬ y.1 <+: x.1

theorem read?_oneOf {choices : List (List τ × α)} (h : Apart choices) {text : List τ} {value : α}
    (hmem : (text, value) ∈ choices) (offset : Nat) (rest : List τ) :
    read? (oneOf choices) ⟨offset, text ++ rest⟩ = some (value, ⟨offset + text.length, rest⟩) := by
  obtain ⟨earlier, later, rfl⟩ := List.append_of_mem hmem
  refine read?_oneOf_iff.mpr
    ⟨earlier, text, later, rfl, fun choice hc hfront => ?_, Cursor.passes_mk offset text rest⟩
  obtain ⟨hfirst, hlast⟩ := (List.pairwise_append.mp h).2.2 choice hc _ List.mem_cons_self
  exact (List.prefix_or_prefix_of_prefix hfront (List.prefix_append text rest)).elim hfirst hlast

end Scanner

/-- The field that a token reads. -/
def DateToken.field? : DateToken → Option DateField
  | .literal _ => none
  | .fullYear | .shortYear => some .year
  | .monthName | .monthAbbr | .month _ => some .month
  | .day _ => some .day
  | .hour _ => some .hour
  | .hour12 _ => some .hour12
  | .minute => some .minute
  | .second => some .second
  | .millis => some .millis
  | .offset => some .offset
  | .meridiem _ => some .pm

/-- Numbers with as many digits as they need. -/
def DateToken.isUnpadded : DateToken → Bool
  | .month padded | .day padded | .hour padded | .hour12 padded => !padded
  | _ => false

/-- Whether what the token writes begins with a digit. -/
def DateToken.beginsWithDigit : DateToken → Bool
  | .literal text => text.head?.any Char.isDigit
  | .monthName | .monthAbbr | .offset | .meridiem _ => false
  | _ => true

/-- What a token for the field reads back from its own text. -/
def DateField.value (c : LocalTime) (offset : Int) : DateField → Int
  | .year => c.date.year
  | .month => c.date.month
  | .day => c.date.day
  | .hour => c.hour
  | .hour12 => (if c.hour % 12 = 0 then 12 else c.hour % 12 : Nat)
  | .minute => c.minute
  | .second => c.second
  | .millis => (c.nanos / 1000000 : Nat)
  | .offset => offset
  | .pm => if 12 ≤ c.hour then 1 else 0

namespace DateTimeFormat

/-- The rest goes on with something else than a digit. -/
def NoDigit (rest : List Char) : Prop := ∀ c ∈ rest.head?, c.isDigit = false

section

variable {offset : Nat} {rest : List Char}

theorem read?_number {least most : Nat} {digits : List Char}
    (hdigits : ∀ c ∈ digits, c.isDigit = true) (hleast : least ≤ digits.length)
    (hmost : digits.length ≤ most) (hrest : digits.length < most → NoDigit rest) :
    read? (number least most) ⟨offset, digits ++ rest⟩ =
      some ((Decimal.ofDigitChars digits : Int), ⟨offset + digits.length, rest⟩) := by
  unfold number
  rw [read?_bind, NumberFormat.read?_between_digits hdigits hleast hmost hrest]
  rfl

theorem read?_number_padded {width most n : Nat} (hwidth : width ≤ most) (hmost : 0 < most)
    (hn : n < 10 ^ most) (hrest : width < most → NoDigit rest) :
    read? (number width most) ⟨offset, Instant.padded width n ++ rest⟩ =
      some ((n : Int), ⟨offset + (Instant.padded width n).length, rest⟩) := by
  have hread := @read?_number offset rest width most (Instant.padded width n)
    (fun c hc => Instant.isDigit_of_mem_padded hc) Instant.le_length_padded
    (Instant.length_padded_le hwidth hmost hn) fun hlt =>
      hrest (Instant.le_length_padded.trans_lt hlt)
  rwa [Instant.ofDigitChars_padded] at hread

end

theorem read?_fixed {count n : Nat} (hcount : 0 < count) (hn : n < 10 ^ count) (offset : Nat)
    (rest : List Char) :
    read? (number count count) ⟨offset, Instant.padded count n ++ rest⟩ =
      some ((n : Int), ⟨offset + (Instant.padded count n).length, rest⟩) :=
  read?_number_padded (Nat.le_refl count) hcount hn fun h => absurd h (Nat.lt_irrefl count)

theorem read?_digitsOf {padded : Bool} {n : Nat} {rest : List Char} (hn : n < 100)
    (hrest : padded = false → NoDigit rest) (offset : Nat) :
    read? (number (width padded) 2) ⟨offset, digitsOf padded n ++ rest⟩ =
      some ((n : Int), ⟨offset + (digitsOf padded n).length, rest⟩) := by
  cases padded with
  | false => exact read?_number_padded (by decide) (by decide) hn fun _ => hrest rfl
  | true => exact read?_fixed (by decide) hn offset rest

theorem read?_field (f : DateField) (p : Scanner Char Int) (c : Cursor Char) :
    read? (field f p) c = (read? p c).map fun x => (some (f, x.1), x.2) := by
  unfold field
  rw [read?_bind]
  cases read? p c <;> rfl

theorem apart_monthNames : Apart (numbered (monthNames.map String.toList)) := by
  unfold Apart
  decide

theorem apart_monthAbbrs : Apart (numbered (monthNames.map fun name => name.toList.take 3)) := by
  unfold Apart
  decide

theorem numbered_monthNames : ∀ i < 12,
    ((monthNames.getD i "").toList, (i : Int) + 1) ∈ numbered (monthNames.map String.toList) := by
  decide

theorem numbered_monthAbbrs : ∀ i < 12,
    ((monthNames.getD i "").toList.take 3, (i : Int) + 1) ∈
      numbered (monthNames.map fun name => name.toList.take 3) := by
  decide

theorem head_monthNames : ∀ i < 12,
    (monthNames.getD i "").toList.head?.any (fun d => !d.isDigit) = true ∧
      ((monthNames.getD i "").toList.take 3).head?.any (fun d => !d.isDigit) = true := by
  decide

theorem apart_meridiems (upper : Bool) :
    Apart (if upper then [(['A', 'M'], (0 : Int)), (['P', 'M'], 1)]
      else [(['a', 'm'], 0), (['p', 'm'], 1)]) := by
  unfold Apart
  cases upper <;> decide

theorem read?_signed {hours minutes : Nat} (hhours : hours < 100) (hminutes : minutes < 100)
    {sign : Char} {value : Int} (hsign : (sign, value) = ('+', 1) ∨ (sign, value) = ('-', -1))
    (offset : Nat) (rest : List Char) :
    read? numericOffset
      ⟨offset, sign :: Instant.padded 2 hours ++ ':' :: Instant.padded 2 minutes ++ rest⟩ =
      some (value * (hours * 3600 + minutes * 60),
        ⟨offset + (sign :: Instant.padded 2 hours ++ ':' :: Instant.padded 2 minutes).length,
          rest⟩) := by
  have hmark : read? (oneOf [(['+'], (1 : Int)), (['-'], -1)])
      ⟨offset, [sign] ++ (Instant.padded 2 hours ++ ([':'] ++ (Instant.padded 2 minutes ++ rest)))⟩ =
      some (value, ⟨offset + 1,
        Instant.padded 2 hours ++ ([':'] ++ (Instant.padded 2 minutes ++ rest))⟩) := by
    apply read?_oneOf
    · unfold Apart
      decide
    · rcases hsign with hsign | hsign <;> cases hsign <;> decide
  have hfirst := @read?_fixed 2 hours (by decide) hhours (offset + 1)
    ([':'] ++ (Instant.padded 2 minutes ++ rest))
  have hcolon := read?_exactly [':'] (offset + 1 + (Instant.padded 2 hours).length)
    (Instant.padded 2 minutes ++ rest)
  have hsecond := @read?_fixed 2 minutes (by decide) hminutes
    (offset + 1 + (Instant.padded 2 hours).length + 1) rest
  simp only [List.cons_append, List.append_assoc, List.nil_append] at hmark hfirst hcolon ⊢
  unfold numericOffset
  simp only [read?_bind, hmark, Option.bind_some, hfirst, read?_optional, hcolon, Option.map_some,
    Option.getD_some, List.length_singleton, hsecond, read?_pure]
  simp only [List.length_cons, List.length_append]
  congr 3
  omega

theorem read?_offsetText {seconds : Int} (h : Instant.IsOffset seconds) (offset : Nat)
    (rest : List Char) :
    read? (orElse (do exactly ['Z']; pure 0) numericOffset)
      ⟨offset, Instant.offsetText seconds ++ rest⟩ =
      some (seconds, ⟨offset + (Instant.offsetText seconds).length, rest⟩) := by
  obtain ⟨hminutes, hday⟩ := h
  rw [read?_orElse, read?_bind]
  unfold Instant.offsetText
  split
  · subst seconds
    rw [read?_exactly]
    rfl
  · dsimp only
    split
    · rw [read?_exactly_none (by simp), Option.bind_none, Option.none_or,
        read?_signed (by omega) (by omega) (.inr rfl)]
      congr 2
      omega
    · rw [read?_exactly_none (by simp), Option.bind_none, Option.none_or,
        read?_signed (by omega) (by omega) (.inl rfl)]
      congr 2
      omega

variable {c : LocalTime} {seconds : Int} {token : DateToken} {rest : List Char}

theorem field?_tokenScanner {found : Option (DateField × Int)} {cursor next : Cursor Char}
    (h : read? (tokenScanner token) cursor = some (found, next)) :
    found.map Prod.fst = token.field? := by
  cases token with
  | literal text =>
    unfold tokenScanner at h
    rw [read?_bind] at h
    obtain ⟨x, -, h⟩ := Option.bind_eq_some_iff.mp h
    cases h
    rfl
  | _ =>
    unfold tokenScanner at h
    rw [read?_field] at h
    obtain ⟨x, -, h⟩ := Option.map_eq_some_iff.mp h
    cases h
    rfl

/-- Whatever is read, each token that is not literal finds its field. -/
theorem fields_fieldScanner {tokens : List DateToken} {fields : List (DateField × Int)}
    {cursor next : Cursor Char} (h : read? (fieldScanner tokens) cursor = some (fields, next)) :
    fields.map Prod.fst = tokens.filterMap DateToken.field? := by
  induction tokens generalizing fields cursor with
  | nil =>
    cases h
    rfl
  | cons token tokens ih =>
    unfold fieldScanner at h
    rw [read?_bind] at h
    obtain ⟨⟨found, between⟩, hfound, h⟩ := Option.bind_eq_some_iff.mp h
    rw [read?_bind] at h
    obtain ⟨⟨later, last⟩, hlater, h⟩ := Option.bind_eq_some_iff.mp h
    cases h
    have hfield := field?_tokenScanner hfound
    rw [List.map_append, ih hlater]
    cases hf : token.field? <;> rw [hf] at hfield <;> cases found <;> simp_all

/-- A token reads back what it writes, if no digit stands behind a number that could go on. -/
theorem read?_tokenScanner (hc : c.Ordinary) (hseconds : Instant.IsOffset seconds)
    (hcentury : token = .shortYear → c.date.year / 100 = 20)
    (hrest : token.isUnpadded = true → NoDigit rest) (offset : Nat) :
    read? (tokenScanner token) ⟨offset, tokenText c seconds token ++ rest⟩ =
      some (token.field?.map fun f => (f, f.value c seconds),
        ⟨offset + (tokenText c seconds token).length, rest⟩) := by
  obtain ⟨hyear₀, hyear₁⟩ := hc.year
  obtain ⟨-, -, hmonth₀, hmonth₁, -, hday⟩ := of_decide_eq_true hc.date
  have hmonthLength := Date.monthLength_le c.date.year c.date.month
  have hhour := hc.hour
  have hminute := hc.minute
  have hsecond := hc.second
  have hnanos := hc.nanos
  have hunpadded : ∀ padded, token.isUnpadded = !padded → padded = false → NoDigit rest := by
    rintro padded htoken rfl
    exact hrest htoken
  cases token with
  | literal text =>
    unfold tokenScanner tokenText
    rw [read?_bind, read?_exactly]
    rfl
  | fullYear =>
    have htext : tokenText c seconds .fullYear = Instant.padded 4 c.date.year.natAbs := by
      unfold tokenText paddedInt
      rw [if_neg (by omega), List.nil_append, String.toList_ofList]
    unfold tokenScanner
    rw [read?_field, htext, read?_fixed (by decide) (by omega), Int.natAbs_of_nonneg hyear₀]
    rfl
  | shortYear =>
    have hfound : 2000 + ((c.date.year % 100).toNat : Int) = c.date.year := by
      have hyear := hcentury rfl
      omega
    unfold tokenScanner tokenText
    rw [read?_field, read?_bind, read?_fixed (by decide) (by omega), Option.bind_some]
    dsimp only
    rw [read?_pure, hfound]
    rfl
  | monthName =>
    have hmem := numbered_monthNames (c.date.month - 1) (by omega)
    rw [← Int.natCast_succ, Nat.succ_eq_add_one, Nat.sub_add_cancel hmonth₀] at hmem
    unfold tokenScanner tokenText
    rw [read?_field, read?_oneOf apart_monthNames hmem]
    rfl
  | monthAbbr =>
    have hmem := numbered_monthAbbrs (c.date.month - 1) (by omega)
    rw [← Int.natCast_succ, Nat.succ_eq_add_one, Nat.sub_add_cancel hmonth₀] at hmem
    unfold tokenScanner tokenText
    rw [read?_field, read?_oneOf apart_monthAbbrs hmem]
    rfl
  | month padded =>
    unfold tokenScanner tokenText
    rw [read?_field, read?_digitsOf (by omega) (hunpadded padded rfl)]
    rfl
  | day padded =>
    unfold tokenScanner tokenText
    rw [read?_field, read?_digitsOf (by omega) (hunpadded padded rfl)]
    rfl
  | hour padded =>
    unfold tokenScanner tokenText
    rw [read?_field, read?_digitsOf (by omega) (hunpadded padded rfl)]
    rfl
  | hour12 padded =>
    unfold tokenScanner tokenText
    rw [read?_field, read?_digitsOf (by split <;> omega) (hunpadded padded rfl)]
    rfl
  | minute =>
    unfold tokenScanner tokenText
    rw [read?_field, read?_fixed (by decide) (by omega)]
    rfl
  | second =>
    unfold tokenScanner tokenText
    rw [read?_field, read?_fixed (by decide) (by omega)]
    rfl
  | millis =>
    have hmillis : min (c.nanos / 1000000) 999 = c.nanos / 1000000 := Nat.min_eq_left (by omega)
    unfold tokenScanner tokenText
    rw [read?_field, hmillis, read?_fixed (by decide) (by omega)]
    rfl
  | offset =>
    unfold tokenScanner tokenText
    rw [read?_field, read?_offsetText hseconds]
    rfl
  | meridiem upper =>
    have hmem : (tokenText c seconds (.meridiem upper), DateField.pm.value c seconds) ∈
        if upper then [(['A', 'M'], (0 : Int)), (['P', 'M'], 1)]
        else [(['a', 'm'], 0), (['p', 'm'], 1)] := by
      unfold tokenText DateField.value
      by_cases hnoon : 12 ≤ c.hour <;> cases upper <;> simp [hnoon]
    unfold tokenScanner
    rw [read?_field, read?_oneOf (apart_meridiems upper) hmem]
    rfl

theorem noDigit_append {text : List Char} (h : text.head?.any (fun d => !d.isDigit) = true)
    (rest : List Char) : NoDigit (text ++ rest) := by
  cases text with
  | nil => cases h
  | cons d text =>
    rintro e ⟨⟩
    simpa using h

/-- A number is not continued by what the next token writes. -/
theorem noDigit_tokenText (hc : c.Ordinary) (hliteral : token ≠ .literal [])
    (hdigit : token.beginsWithDigit = false) (rest : List Char) :
    NoDigit (tokenText c seconds token ++ rest) := by
  obtain ⟨-, -, hmonth₀, hmonth₁, -, -⟩ := of_decide_eq_true hc.date
  refine noDigit_append ?_ rest
  cases token with
  | literal text =>
    cases text with
    | nil => exact absurd rfl hliteral
    | cons d text => simpa [DateToken.beginsWithDigit, tokenText] using hdigit
  | monthName => exact (head_monthNames _ (by omega)).1
  | monthAbbr => exact (head_monthNames _ (by omega)).2
  | offset =>
    change (Instant.offsetText seconds).head?.any _ = true
    unfold Instant.offsetText
    split
    · rfl
    · dsimp only
      split <;> rfl
  | meridiem upper =>
    unfold tokenText
    cases decide (12 ≤ c.hour) <;> cases upper <;> rfl
  | _ => cases hdigit

/-- Numbers without padding stand before a literal or a word that begins with no digit. -/
def Delimited (format : DateTimeFormat) : Prop :=
  format.tokens.IsChain fun token next => ¬ (token.isUnpadded = true ∧ next.beginsWithDigit = true)

def fieldsOf (c : LocalTime) (seconds : Int) (tokens : List DateToken) : List (DateField × Int) :=
  tokens.filterMap fun token => token.field?.map fun f => (f, f.value c seconds)

/-- The fields of a text are read before what goes on with no digit. -/
theorem read?_fieldScanner_before (hc : c.Ordinary) (hseconds : Instant.IsOffset seconds)
    {tokens : List DateToken} (hcentury : .shortYear ∈ tokens → c.date.year / 100 = 20)
    (hliteral : .literal [] ∉ tokens) (hdelimited : Delimited ⟨tokens⟩) {rest : List Char}
    (hrest : NoDigit rest) (offset : Nat) :
    read? (fieldScanner tokens) ⟨offset, tokens.flatMap (tokenText c seconds) ++ rest⟩ =
      some (fieldsOf c seconds tokens,
        ⟨offset + (tokens.flatMap (tokenText c seconds)).length, rest⟩) := by
  induction tokens generalizing offset with
  | nil => rfl
  | cons token tokens ih =>
    have hbehind : token.isUnpadded = true →
        NoDigit (tokens.flatMap (tokenText c seconds) ++ rest) := by
      intro hunpadded
      cases tokens with
      | nil => exact hrest
      | cons next tokens =>
        obtain ⟨hnext, -⟩ := List.isChain_cons_cons.mp hdelimited
        have hdigit : next.beginsWithDigit = false :=
          Bool.eq_false_of_not_eq_true fun h => hnext ⟨hunpadded, h⟩
        have hnonempty : next ≠ .literal [] := by
          rintro rfl
          exact hliteral (by simp)
        rw [List.flatMap_cons, List.append_assoc]
        exact noDigit_tokenText hc hnonempty hdigit _
    have hfirst := read?_tokenScanner hc hseconds (fun h => hcentury (by simp [h])) hbehind offset
    have hlater := ih (fun h => hcentury (List.mem_cons_of_mem _ h))
      (fun h => hliteral (List.mem_cons_of_mem _ h)) (List.IsChain.tail hdelimited)
      (offset + (tokenText c seconds token).length)
    unfold fieldScanner
    rw [List.flatMap_cons, List.append_assoc, read?_bind, hfirst, Option.bind_some, read?_bind,
      hlater, Option.bind_some, List.length_append, Nat.add_assoc]
    cases hfield : token.field? <;> simp [fieldsOf, hfield]

def Shows (format : DateTimeFormat) (f : DateField) : Prop :=
  ∃ token ∈ format.tokens, token.field? = some f

instance (format : DateTimeFormat) (f : DateField) : Decidable (format.Shows f) :=
  inferInstanceAs (Decidable (∃ token ∈ format.tokens, token.field? = some f))

/-- The format tells a time to the millisecond, with all digits of the year. -/
def Complete (format : DateTimeFormat) : Prop :=
  .fullYear ∈ format.tokens ∧ .shortYear ∉ format.tokens ∧
  (∀ f ∈ [DateField.month, .day, .minute, .second, .millis, .offset], format.Shows f) ∧
  (format.Shows .hour ∨ format.Shows .hour12 ∧ format.Shows .pm)

theorem lookup_of_forall {fields : List (DateField × Int)} {value : DateField → Int}
    (h : ∀ x ∈ fields, x.2 = value x.1) (f : DateField) :
    fields.lookup f = if f ∈ fields.map Prod.fst then some (value f) else none := by
  induction fields with
  | nil => rfl
  | cons x fields ih =>
    have hx := h x (by simp)
    have hfields := ih fun y hy => h y (by simp [hy])
    rw [List.lookup_cons]
    by_cases hf : f = x.1
    · subst hf
      simp [hx]
    · have hne : (f == x.1) = false := by simpa using hf
      have hmem : f ∈ (x :: fields).map Prod.fst ↔ f ∈ fields.map Prod.fst := by
        rw [List.map_cons, List.mem_cons, or_iff_right hf]
      simp only [hne, hfields, hmem]

theorem lookup_fieldsOf (format : DateTimeFormat) (f : DateField) :
    (fieldsOf c seconds format.tokens).reverse.lookup f =
      if format.Shows f then some (f.value c seconds) else none := by
  have hvalue : ∀ x ∈ (fieldsOf c seconds format.tokens).reverse, x.2 = x.1.value c seconds := by
    intro x hx
    obtain ⟨token, -, hx⟩ := List.mem_filterMap.mp (List.mem_reverse.mp hx)
    obtain ⟨g, -, rfl⟩ := Option.map_eq_some_iff.mp hx
    rfl
  rw [lookup_of_forall hvalue]
  have hshows : f ∈ (fieldsOf c seconds format.tokens).reverse.map Prod.fst ↔ format.Shows f := by
    simp [fieldsOf, Shows]
  simp only [hshows]

theorem getD_fieldsOf (format : DateTimeFormat) (f : DateField) (other : Int) :
    ((fieldsOf c seconds format.tokens).reverse.lookup f).getD other =
      if format.Shows f then f.value c seconds else other := by
  rw [lookup_fieldsOf]
  split <;> rfl

/-- What a format tells of a time, to the millisecond: the first of January and midnight where it
tells nothing. -/
def told (format : DateTimeFormat) (c : LocalTime) : LocalTime where
  date :=
    ⟨c.date.year, if format.Shows .month then c.date.month else 1,
      if format.Shows .day then c.date.day else 1⟩
  hour := if format.Shows .hour ∨ format.Shows .hour12 then c.hour else 0
  minute := if format.Shows .minute then c.minute else 0
  second := if format.Shows .second then c.second else 0
  nanos := if format.Shows .millis then c.nanos / 1000000 * 1000000 else 0

/-- The offset that a format tells, or that of the reader. -/
def toldOffset (format : DateTimeFormat) (seconds : Int) (context : ScanContext) : Int :=
  if format.Shows .offset then seconds else context.utcOffset

/-- The days that a month has are days of the first of January's month too. -/
theorem ordinary_told (format : DateTimeFormat) (hc : c.Ordinary) : (format.told c).Ordinary := by
  obtain ⟨hyear₀, hyear₁, hmonth₀, hmonth₁, hday₀, hday₁⟩ := of_decide_eq_true hc.date
  have hmonthLength := Date.monthLength_le c.date.year c.date.month
  have hhour := hc.hour
  have hminute := hc.minute
  have hsecond := hc.second
  have hnanos := hc.nanos
  have hdate : (format.told c).date.isValid = true := by
    apply decide_eq_true
    refine ⟨hyear₀, hyear₁, ?_, ?_, ?_, ?_⟩
    · unfold told
      dsimp only
      split <;> omega
    · unfold told
      dsimp only
      split <;> omega
    · unfold told
      dsimp only
      split <;> omega
    · have hjanuary : Date.monthLength c.date.year 1 = 31 := rfl
      unfold told
      dsimp only
      split <;> split <;> omega
  refine ⟨hdate, hc.year, ?_, ?_, ?_, ?_⟩ <;> unfold told <;> dsimp only <;> split <;> omega

theorem hourOf_fieldsOf {format : DateTimeFormat} (hc : c.Ordinary)
    (hclock : format.Shows .hour12 → format.Shows .hour ∨ format.Shows .pm) :
    hourOf ((fieldsOf c seconds format.tokens).reverse.lookup .hour)
      ((fieldsOf c seconds format.tokens).reverse.lookup .hour12)
      ((fieldsOf c seconds format.tokens).reverse.lookup .pm) = (format.told c).hour := by
  have hday := hc.hour
  rw [lookup_fieldsOf, lookup_fieldsOf, lookup_fieldsOf]
  unfold told
  dsimp only
  by_cases hhour : format.Shows .hour
  · have hshown : format.Shows .hour ∨ format.Shows .hour12 := .inl hhour
    rw [if_pos hhour, if_pos hshown]
    rfl
  · by_cases hhour12 : format.Shows .hour12
    · have hshown : format.Shows .hour ∨ format.Shows .hour12 := .inr hhour12
      have hpm : format.Shows .pm := (hclock hhour12).resolve_left hhour
      rw [if_neg hhour, if_pos hhour12, if_pos hpm, if_pos hshown]
      unfold hourOf DateField.value
      dsimp only
      split <;> split <;> omega
    · have hhidden : ¬ (format.Shows .hour ∨ format.Shows .hour12) := not_or.mpr ⟨hhour, hhour12⟩
      rw [if_neg hhour, if_neg hhour12, if_neg hhidden]
      rfl

/-- The time that fields tell. -/
theorem assemble_told {format : DateTimeFormat} (hc : c.Ordinary)
    (hseconds : Instant.IsOffset seconds) (hyear : format.Shows .year)
    (hclock : format.Shows .hour12 → format.Shows .hour ∨ format.Shows .pm)
    (context : ScanContext) :
    assemble context (fieldsOf c seconds format.tokens) =
      .ok (Instant.ofLocal (format.told c) (format.toldOffset seconds context)) := by
  obtain ⟨hdate, -, hhour, hminute, hsecond, -⟩ := ordinary_told format hc
  have hget : ∀ (f : DateField) (n other : Nat), f.value c seconds = n →
      ((fieldsOf c seconds format.tokens).reverse.lookup f).getD other =
        ((if format.Shows f then n else other : Nat) : Int) := by
    intro f n other hvalue
    rw [getD_fieldsOf, hvalue]
    split <;> rfl
  have hyear : ∀ other, ((fieldsOf c seconds format.tokens).reverse.lookup .year).getD other =
      (format.told c).date.year := by
    intro other
    rw [getD_fieldsOf, if_pos hyear]
    rfl
  have hmonth : ((fieldsOf c seconds format.tokens).reverse.lookup .month).getD 1 =
      (format.told c).date.month := hget .month c.date.month 1 rfl
  have hday : ((fieldsOf c seconds format.tokens).reverse.lookup .day).getD 1 =
      (format.told c).date.day := hget .day c.date.day 1 rfl
  have hminutes : ((fieldsOf c seconds format.tokens).reverse.lookup .minute).getD 0 =
      (format.told c).minute := hget .minute c.minute 0 rfl
  have hlast : ((fieldsOf c seconds format.tokens).reverse.lookup .second).getD 0 =
      (format.told c).second := hget .second c.second 0 rfl
  have hmillis : (((fieldsOf c seconds format.tokens).reverse.lookup .millis).getD 0).toNat *
      1000000 = (format.told c).nanos := by
    rw [getD_fieldsOf]
    unfold told
    split <;> rfl
  have hoffset : ((fieldsOf c seconds format.tokens).reverse.lookup .offset).getD
      context.utcOffset = format.toldOffset seconds context := getD_fieldsOf format .offset _
  have hrange : ¬ (((fieldsOf c seconds format.tokens).reverse.lookup .offset).isSome = true ∧
      86400 ≤ (format.toldOffset seconds context).natAbs) := by
    rw [lookup_fieldsOf]
    unfold toldOffset
    have hday := hseconds.2
    split
    · omega
    · simp
  have htime : ¬ (23 < ((format.told c).hour : Int) ∨ 59 < ((format.told c).minute : Int) ∨
      59 < ((format.told c).second : Int)) := by omega
  unfold assemble
  simp only [hourOf_fieldsOf hc hclock, hyear, hmonth, hday, hminutes, hlast, hmillis, hoffset,
    Int.toNat_natCast]
  rw [if_neg hrange, if_neg (by simp [hdate]), if_neg htime]

/-- The time that all fields tell is the one that was written, to the millisecond. -/
theorem assemble_fieldsOf {format : DateTimeFormat} (hc : c.Ordinary)
    (hseconds : Instant.IsOffset seconds) (hcomplete : format.Complete) (context : ScanContext) :
    assemble context (fieldsOf c seconds format.tokens) =
      .ok (Instant.ofLocal { c with nanos := c.nanos / 1000000 * 1000000 } seconds) := by
  obtain ⟨hyear, -, hshown, hclock⟩ := hcomplete
  have htold : format.told c = { c with nanos := c.nanos / 1000000 * 1000000 } := by
    unfold told
    rw [if_pos (hshown _ (by simp)), if_pos (hshown _ (by simp)), if_pos (hshown _ (by simp)),
      if_pos (hshown _ (by simp)), if_pos (hshown _ (by simp)), if_pos (hclock.imp_right And.left)]
  have hoffset : format.toldOffset seconds context = seconds := if_pos (hshown _ (by simp))
  rw [assemble_told hc hseconds ⟨_, hyear, rfl⟩ (fun _ => hclock.imp_right And.right), htold, hoffset]

end DateTimeFormat

end ClauseTemplates
