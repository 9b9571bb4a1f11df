import ClauseTemplates.Proofs.Format.Grouped
import ClauseTemplates.Proofs.Number.Nearest

namespace ClauseTemplates

namespace WrittenJson

theorem ne_of_isDigit {c d : Char} (hc : c.isDigit = true) (hd : d.isDigit = false) : c ≠ d := by
  intro h
  rw [h, hd] at hc
  cases hc

/-- Digits with something that is no exponent behind them are all mantissa. -/
theorem decimalOf_mantissa {cs : List Char} (hcs : ∀ c ∈ cs, c ≠ 'e' ∧ c ≠ 'E') :
    decimalOf cs = ⟨Decimal.ofDigitChars ((cs.span (· != '.')).1 ++ (cs.span (· != '.')).2.drop 1),
      -(((cs.span (· != '.')).2.drop 1).length : Int)⟩ := by
  have hmantissa : (cs ++ []).span (fun c => !(c == 'e' || c == 'E')) = (cs, []) := by
    apply span_append
    · intro c hc
      simp [hcs c hc]
    · simp
  rw [List.append_nil] at hmantissa
  unfold decimalOf
  rw [hmantissa]
  simp [exponentValue, Decimal.ofDigitChars]

theorem decimalOf_plain {digits : List Char} (hdigits : ∀ c ∈ digits, c.isDigit = true) :
    decimalOf digits = ⟨Decimal.ofDigitChars digits, -((0 : Nat) : Int)⟩ := by
  have hspan : (digits ++ []).span (· != '.') = (digits, []) := by
    apply span_append
    · intro c hc
      simpa using ne_of_isDigit (hdigits c hc) rfl
    · simp
  rw [List.append_nil] at hspan
  rw [decimalOf_mantissa fun c hc =>
    ⟨ne_of_isDigit (hdigits c hc) rfl, ne_of_isDigit (hdigits c hc) rfl⟩, hspan]
  simp

theorem decimalOf_point {whole fraction : List Char} (hwhole : ∀ c ∈ whole, c.isDigit = true)
    (hfraction : ∀ c ∈ fraction, c.isDigit = true) :
    decimalOf (whole ++ '.' :: fraction) =
      ⟨Decimal.ofDigitChars (whole ++ fraction), -(fraction.length : Int)⟩ := by
  have hspan : (whole ++ '.' :: fraction).span (· != '.') = (whole, '.' :: fraction) := by
    apply span_append
    · intro c hc
      simpa using ne_of_isDigit (hwhole c hc) rfl
    · simp
  have hmantissa : ∀ c ∈ whole ++ '.' :: fraction, c ≠ 'e' ∧ c ≠ 'E' := by
    intro c hc
    rcases List.mem_append.mp hc with hc | hc
    · exact ⟨ne_of_isDigit (hwhole c hc) rfl, ne_of_isDigit (hwhole c hc) rfl⟩
    · rcases List.mem_cons.mp hc with rfl | hc
      · decide
      · exact ⟨ne_of_isDigit (hfraction c hc) rfl, ne_of_isDigit (hfraction c hc) rfl⟩
  rw [decimalOf_mantissa hmantissa, hspan]
  rfl

end WrittenJson

namespace Double

variable {v x y : Double} {places : Nat}

/-- `|x|` to a number of places, in units of the last one. -/
def scaled (places : Nat) (x : Double) : Nat :=
  roundHalfEven (x.magnitude * power 10 places) unitsPerOne

theorem fixedParts_eq (places : Nat) (x : Double) :
    ∃ whole fraction, x.fixedParts places = (whole, fraction) ∧
      whole ++ fraction = Instant.padded (places + 1) (x.scaled places) ∧ whole ≠ [] ∧
      fraction.length = places := by
  have hlength : places + 1 ≤ (Instant.padded (places + 1) (x.scaled places)).length :=
    Instant.le_length_padded
  generalize hdigits : Instant.padded (places + 1) (x.scaled places) = digits at hlength
  refine ⟨digits.take (digits.length - places), digits.drop (digits.length - places), ?_,
    List.take_append_drop _ _, ?_, ?_⟩
  · rw [← hdigits]
    rfl
  · apply List.ne_nil_of_length_pos
    rw [List.length_take]
    omega
  · rw [List.length_drop]
    omega

theorem isDigit_of_padded {digits : List Char} {n : Nat} (h : digits = Instant.padded (places + 1) n) :
    ∀ c ∈ digits, c.isDigit = true := by
  intro c hc
  rw [h] at hc
  exact Instant.isDigit_of_mem_padded hc

theorem fixedParts_congr (h : x.scaled places = y.scaled places) :
    x.fixedParts places = y.fixedParts places := by
  unfold fixedParts
  rw [← scaled, h, scaled]

/-- The digits of a double to a number of places are read as a nearest double to them, which has
the same digits. -/
theorem exists_sameParts (v : Double) (places : Nat) (negative : Bool) :
    ∃ w, (⟨v.scaled places, -(places : Int)⟩ : Decimal).toDouble? negative = some w ∧
      w.negative = negative ∧ w.fixedParts places = v.fixedParts places := by
  obtain ⟨w, hw, hnegative, hnearest⟩ :=
    Decimal.exists_nearest (roundHalfEven_le v places) negative
  exact ⟨w, hw, hnegative, fixedParts_congr (roundHalfEven_of_isNearest hnearest)⟩

/-- What has a digit other than zero is not zero. -/
theorem magnitude_pos {c : Char} (h : c ∈ Instant.padded (places + 1) (v.scaled places))
    (hc : c ≠ '0') : 0 < v.magnitude := by
  apply Nat.pos_of_ne_zero
  intro hzero
  have hunits : 0 < unitsPerOne := power_pos (by decide) 1074
  have hscaled : v.scaled places ≤ 0 := by
    apply (rounds_roundHalfEven hunits).le hunits
    rw [hzero, Nat.zero_mul, Nat.zero_mul]
  rw [Nat.le_zero.mp hscaled] at h
  rcases List.mem_append.mp h with h | h
  · exact hc (List.eq_of_mem_replicate h)
  · exact hc (List.mem_singleton.mp h)

end Double

namespace NumberLayout

/-- Marks are no digits, and where there is one between groups, there is another one before the
fraction. -/
structure Sound (layout : NumberLayout) : Prop where
  grouping : ∀ m ∈ layout.grouping, m.isDigit = false ∧ ∃ part, layout.fraction = some part ∧
    m ≠ part.separator
  fraction : ∀ part ∈ layout.fraction, part.separator.isDigit = false ∧ 0 < part.places

end NumberLayout

namespace NumberFormat

open Scan Scanner

theorem length_of_isZeros {cs : List Char} (h : isZeros cs = true) : 0 < cs.length := by
  cases cs with
  | nil => cases h
  | cons c cs => exact Nat.succ_pos _

theorem double_eq_ok {pattern : List Char} {format : NumberFormat}
    (h : double (some pattern) = .ok format) :
    ∃ layout, format = ⟨false, some layout⟩ ∧ layout.Sound := by
  unfold double at h
  dsimp only at h
  split at h
  · cases ‹some pattern = none›
  · cases h
    exact ⟨_, rfl, by simp, by simp⟩
  · split at h
    · cases h
    · rename_i hmark
      split at h
      · rename_i hzeros
        cases h
        refine ⟨_, rfl, by simp, ?_⟩
        intro part hpart
        cases hpart
        exact ⟨Bool.eq_false_of_not_eq_true hmark, length_of_isZeros hzeros⟩
      · split at h
        · split at h
          · cases h
          · rename_i hpoint
            split at h
            · cases h
            · rename_i hne
              cases h
              have hparts := Bool.eq_false_of_not_eq_true hpoint
              rw [Bool.or_eq_false_iff, Bool.not_eq_false'] at hparts
              refine ⟨_, rfl, ?_, ?_⟩
              · intro m hm
                cases hm
                exact ⟨Bool.eq_false_of_not_eq_true hmark, _, rfl, hne⟩
              · intro part hpart
                cases hpart
                exact ⟨hparts.1, length_of_isZeros hparts.2⟩
        · cases h
  · cases h

section

variable {layout : NumberLayout} {whole fraction rest : List Char} {negative : Bool}

/-- The text of a number in parts. -/
def laid (layout : NumberLayout) (negative : Bool) (whole fraction : List Char) : List Char :=
  minus negative ++ grouped layout.grouping whole ++
    match layout.fraction with
    | none => []
    | some part => part.separator :: fraction

/-- The digits of a number in parts, with a point where the layout has a fraction. -/
def pointed (layout : NumberLayout) (whole fraction : List Char) : List Char :=
  match layout.fraction with
  | none => whole
  | some _ => whole ++ '.' :: fraction

theorem writtenDouble_eq {x : Double}
    (hparts : x.fixedParts ((layout.fraction.map (·.places)).getD 0) = (whole, fraction)) :
    writtenDouble ⟨false, some layout⟩ x =
      laid layout (x.negative && (whole ++ fraction).any (· != '0')) whole fraction := by
  obtain rfl : (x.fixedParts _).1 = whole := congrArg Prod.fst hparts
  obtain rfl : (x.fixedParts _).2 = fraction := congrArg Prod.snd hparts
  rfl

theorem read?_decimalPart (hlayout : layout.Sound) (hwhole : whole ≠ [])
    (hdigits : ∀ c ∈ whole, c.isDigit = true) (hfraction : ∀ c ∈ fraction, c.isDigit = true)
    (hplaces : ∀ part ∈ layout.fraction, fraction ≠ [])
    (hrest : ∀ c ∈ rest.head?, c.isDigit = false) (negative : Bool) (offset : Nat) :
    read? (decimalPart ⟨false, some layout⟩) ⟨offset, laid layout negative whole fraction ++ rest⟩ =
      some ((negative, pointed layout whole fraction),
        ⟨offset + (laid layout negative whole fraction).length, rest⟩) := by
  have hlaid : LaidOut layout.grouping (grouped layout.grouping whole) whole :=
    laidOut_iff.mpr ⟨rfl, hwhole, hdigits⟩
  have hmark : ∀ m ∈ layout.grouping, m.isDigit = false := fun m hm => (hlayout.grouping m hm).1
  obtain ⟨grouping, part?⟩ := layout
  unfold decimalPart laid pointed
  dsimp only at *
  rw [read?_bind]
  cases part? with
  | none =>
    -- Without a fraction there are no groups.
    have hended : Ended grouping rest := by
      refine ⟨hrest, ?_⟩
      intro m hm
      obtain ⟨-, part, hpart, -⟩ := hlayout.grouping m hm
      cases hpart
    have hread := @read?_wholePart ⟨false, some ⟨grouping, none⟩⟩ _ _ _ hmark hlaid hended
      negative offset
    dsimp only
    rw [List.append_nil, hread]
    rfl
  | some part =>
    obtain ⟨hseparator, -⟩ := hlayout.fraction part rfl
    have hended : Ended grouping (part.separator :: (fraction ++ rest)) := by
      refine ⟨by simpa using hseparator, ?_⟩
      intro m hm digits _ hprefix
      obtain ⟨-, other, hother, hne⟩ := hlayout.grouping m hm
      cases hother
      exact hne (List.cons_prefix_cons.mp hprefix).1
    have hread := @read?_wholePart ⟨false, some ⟨grouping, some part⟩⟩ _ _ _ hmark hlaid hended
      negative offset
    have hexactly := read?_exactly [part.separator]
      (offset + (minus negative ++ grouped grouping whole).length) (fraction ++ rest)
    have hdigits := read?_digits (hplaces part rfl) hfraction hrest
      (offset + (minus negative ++ grouped grouping whole).length + 1)
    dsimp only
    rw [List.append_assoc, List.cons_append, hread, Option.bind_some]
    dsimp only
    rw [List.singleton_append] at hexactly
    rw [read?_bind, hexactly, Option.bind_some, read?_bind]
    rw [List.length_singleton, hdigits]
    simp [Nat.add_assoc, Nat.add_comm 1]

/-- The number of places that are told. -/
def places (layout : NumberLayout) : Nat := (layout.fraction.map (·.places)).getD 0

theorem decimalOf_pointed (hfraction : fraction.length = places layout)
    (hdigits : ∀ c ∈ whole ++ fraction, c.isDigit = true) :
    WrittenJson.decimalOf (pointed layout whole fraction) =
      ⟨Decimal.ofDigitChars (whole ++ fraction), -(places layout : Int)⟩ := by
  have hwhole : ∀ c ∈ whole, c.isDigit = true := fun c hc =>
    hdigits c (List.mem_append_left fraction hc)
  unfold pointed
  split
  · rename_i hnone
    have hplaces : places layout = 0 := by rw [places, hnone]; rfl
    rw [hplaces, List.length_eq_zero_iff] at hfraction
    rw [hfraction, hplaces, List.append_nil]
    exact WrittenJson.decimalOf_plain hwhole
  · rw [← hfraction]
    exact WrittenJson.decimalOf_point hwhole fun c hc =>
      hdigits c (List.mem_append_right whole hc)

/-- What is written for a double is read in front of anything but a digit. The double that is read
may be another one, but the same is written for it. -/
theorem read?_writtenDouble (hlayout : layout.Sound) (v : Double) :
    ∃ w, writtenDouble ⟨false, some layout⟩ w = writtenDouble ⟨false, some layout⟩ v ∧
      ∀ rest : List Char, (∀ c ∈ rest.head?, c.isDigit = false) → ∀ offset,
        read? (doubleScanner ⟨false, some layout⟩)
            ⟨offset, writtenDouble ⟨false, some layout⟩ v ++ rest⟩ =
          some (some w, ⟨offset + (writtenDouble ⟨false, some layout⟩ v).length, rest⟩) := by
  obtain ⟨whole, fraction, hparts, hdigits, hwhole, hfraction⟩ := v.fixedParts_eq (places layout)
  have hall := Double.isDigit_of_padded hdigits
  have hvalue : Decimal.ofDigitChars (whole ++ fraction) = v.scaled (places layout) := by
    rw [hdigits, Instant.ofDigitChars_padded]
  generalize hshown : (v.negative && (whole ++ fraction).any (· != '0')) = shown
  obtain ⟨w, hw, hnegative, hsame⟩ := v.exists_sameParts (places layout) shown
  have hwritten : writtenDouble ⟨false, some layout⟩ v = laid layout shown whole fraction := by
    rw [writtenDouble_eq hparts, hshown]
  have hagain : writtenDouble ⟨false, some layout⟩ w = laid layout shown whole fraction := by
    rw [writtenDouble_eq (hsame.trans hparts), hnegative, ← hshown, Bool.and_assoc, Bool.and_self]
  refine ⟨w, hagain.trans hwritten.symm, ?_⟩
  intro rest hrest offset
  have hplaces : ∀ part ∈ layout.fraction, fraction ≠ [] := by
    intro part hpart
    have hpos := (hlayout.fraction part hpart).2
    have hcount : places layout = part.places := by rw [places, hpart]; rfl
    apply List.ne_nil_of_length_pos
    omega
  have hread := read?_decimalPart hlayout hwhole
    (fun c hc => hall c (List.mem_append_left fraction hc))
    (fun c hc => hall c (List.mem_append_right whole hc)) hplaces hrest shown offset
  unfold doubleScanner
  rw [hwritten, read?_bind, hread, Option.bind_some]
  dsimp only
  rw [decimalOf_pointed hfraction hall, hvalue, hw]
  rfl

/-- A minus stands only in front of a negative number with a digit other than zero. -/
theorem negative_of_head {v : Double}
    (hhead : (writtenDouble ⟨false, some layout⟩ v).head? = some '-') :
    v.units < 0 ∧ ∃ c ∈ writtenDouble ⟨false, some layout⟩ v, c.isDigit = true ∧ c ≠ '0' := by
  obtain ⟨whole, fraction, hparts, hdigits, hwhole, hfraction⟩ := v.fixedParts_eq (places layout)
  have hall := Double.isDigit_of_padded hdigits
  have hlaid : LaidOut layout.grouping (grouped layout.grouping whole) whole :=
    laidOut_iff.mpr ⟨rfl, hwhole, fun c hc => hall c (List.mem_append_left fraction hc)⟩
  rw [writtenDouble_eq hparts] at hhead ⊢
  cases hshown : v.negative && (whole ++ fraction).any (· != '0') with
  | false =>
    obtain ⟨c, more, htext, hc⟩ := hlaid.head
    rw [hshown, laid, htext] at hhead
    cases hhead
    cases hc
  | true =>
    obtain ⟨hnegative, hany⟩ := (Bool.and_eq_true _ _).mp hshown
    obtain ⟨c, hc, hne⟩ := List.any_eq_true.mp hany
    have hne : c ≠ '0' := by simpa using hne
    have hmagnitude := Double.magnitude_pos (hdigits ▸ hc) hne
    refine ⟨?_, c, ?_, hall c hc, hne⟩
    · unfold Double.units
      rw [if_pos hnegative]
      omega
    · unfold laid
      rcases List.mem_append.mp hc with hc | hc
      · exact List.mem_append_left _ (List.mem_append_right _ (hlaid.mem hc))
      · apply List.mem_append_right
        cases hpart : layout.fraction with
        | none =>
          have hplaces : places layout = 0 := by rw [places, hpart]; rfl
          rw [List.length_eq_zero_iff.mp (hfraction.trans hplaces)] at hc
          cases hc
        | some part => exact List.mem_cons_of_mem _ hc

end

/-- Doubles do not drift: what is drafted for a double is read, as a double for which the same is
drafted, and a minus shows only in front of a negative number with a digit other than zero. -/
theorem redraft_double {pattern : List Char} {format : NumberFormat}
    (hcompile : double (some pattern) = .ok format) (v : Double) :
    ∃ text w, format.draft (.double v) = .ok text ∧ Accepts format.scanner text (.double w) ∧
      format.draft (.double w) = .ok text ∧
      (text.head? = some '-' → v.units < 0 ∧ ∃ c ∈ text, c.isDigit = true ∧ c ≠ '0') := by
  obtain ⟨layout, rfl, hlayout⟩ := double_eq_ok hcompile
  obtain ⟨w, hagain, hread⟩ := read?_writtenDouble hlayout v
  have hdraft : ∀ x, draft ⟨false, some layout⟩ (.double x) =
      .ok (writtenDouble ⟨false, some layout⟩ x) := fun _ => rfl
  refine ⟨writtenDouble ⟨false, some layout⟩ v, w, hdraft v, ?_, ?_, negative_of_head⟩
  · have hwhole := hread [] (by simp) 0
    rw [List.append_nil] at hwhole
    refine accepts_iff.mpr ⟨_, read?_tryMap_eq_some.mpr ⟨some w, hwhole, rfl⟩⟩
  · rw [hdraft, hagain]

namespace Hundredths

def pattern : List Char := "0,0.00".toList

def format : NumberFormat := ⟨false, some ⟨some ',', some ⟨'.', 2⟩⟩⟩

/-- Minus a thousand and one and an eighth, halfway between two hundredths. -/
def value : Double := ⟨true, 8009 * power 2 40, -43, by decide, by decide, by decide, by decide⟩

theorem redraft_double_hundredths :
    double (some pattern) = .ok format ∧
      format.draft (.double value) = .ok "-1,001.12".toList ∧
      ∃ text w, format.draft (.double value) = .ok text ∧ Accepts format.scanner text (.double w) ∧
        format.draft (.double w) = .ok text ∧
        (text.head? = some '-' → value.units < 0 ∧ ∃ c ∈ text, c.isDigit = true ∧ c ≠ '0') := by
  have hcompile : double (some pattern) = .ok format := rfl
  have htext : format.draft (.double value) = .ok "-1,001.12".toList := by decide +kernel
  exact ⟨hcompile, htext, redraft_double hcompile value⟩

end Hundredths

end NumberFormat

end ClauseTemplates
