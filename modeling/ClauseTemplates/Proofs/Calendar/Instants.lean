import ClauseTemplates.Proofs.Calendar.Days
import ClauseTemplates.Proofs.Effects
import ClauseTemplates.Proofs.Number.Digits
import Mathlib.Tactic.SplitIfs

namespace ClauseTemplates

theorem Text.length_le_byteLength (cs : List Char) : cs.length ≤ Text.byteLength cs := by
  induction cs with
  | nil => exact Nat.le_refl 0
  | cons c cs ih =>
    have hpos := Char.utf8Size_pos c
    change cs.length + 1 ≤ c.utf8Size + Text.byteLength cs
    omega

/-- What a clock shows outside of leap seconds, on a day that RFC 3339 text can show. -/
structure LocalTime.Ordinary (c : LocalTime) : Prop where
  date : c.date.isValid = true
  year : 0 ≤ c.date.year ∧ c.date.year ≤ 9999
  hour : c.hour < 24
  minute : c.minute < 60
  second : c.second < 60
  nanos : c.nanos < 1000000000

/-- The last nanosecond before a leap second instead of a time in it. -/
def LocalTime.beforeLeap (c : LocalTime) : LocalTime := { c with nanos := min c.nanos 999999999 }

namespace Instant

/-- Whole minutes, less than a day. -/
def IsOffset (offset : Int) : Prop := offset % 60 = 0 ∧ offset.natAbs < 86400

/-- What the text of an offset tells of it. -/
def wholeMinutes (offset : Int) : Int :=
  if offset < 0 then -((offset.natAbs / 60 * 60 : Nat) : Int) else (offset.natAbs / 60 * 60 : Nat)

theorem IsOffset.wholeMinutes_eq {offset : Int} (h : IsOffset offset) :
    wholeMinutes offset = offset := by
  have hminutes := h.1
  unfold wholeMinutes
  split <;> omega

theorem localTime_ofLocal {c : LocalTime} (h : c.Ordinary) (offset : Int) :
    (ofLocal c offset).localTime = c := by
  obtain ⟨date, hour, minute, second, nanos⟩ := c
  have hhour : hour < 24 := h.hour
  have hminute : minute < 60 := h.minute
  have hsecond : second < 60 := h.second
  have hdays : (date.toDay * secondsPerDay + ((hour * 60 + minute) * 60 + second : Nat) - offset +
      offset) / secondsPerDay = date.toDay := by
    unfold secondsPerDay
    omega
  have hclock : ((date.toDay * secondsPerDay + ((hour * 60 + minute) * 60 + second : Nat) - offset +
      offset) % secondsPerDay).toNat = (hour * 60 + minute) * 60 + second := by
    unfold secondsPerDay
    omega
  unfold localTime ofLocal
  dsimp only
  rw [hdays, hclock, Date.ofDay_toDay h.date]
  have hhours : ((hour * 60 + minute) * 60 + second) / 3600 = hour := by omega
  have hminutes : ((hour * 60 + minute) * 60 + second) / 60 % 60 = minute := by omega
  have hseconds : ((hour * 60 + minute) * 60 + second) % 60 = second := by omega
  rw [hhours, hminutes, hseconds]

section

variable {count n : Nat} {cs rest digits : List Char}

theorem readDigits_lt (h : readDigits count cs = .ok (n, rest)) : n < 10 ^ count := by
  unfold readDigits at h
  dsimp only at h
  split at h
  · rename_i hdigits
    cases h
    have hlt := Decimal.ofDigitChars_lt (cs.take count)
    rwa [hdigits.1] at hlt
  · cases h

theorem readDigits_append (hlength : digits.length = count)
    (hdigits : ∀ c ∈ digits, c.isDigit = true) (rest : List Char) :
    readDigits count (digits ++ rest) = .ok (Decimal.ofDigitChars digits, rest) := by
  subst hlength
  unfold readDigits
  dsimp only
  rw [List.take_left, List.drop_left, if_pos ⟨rfl, List.all_eq_true.mpr hdigits⟩]

theorem readDigits_padded (hcount : 0 < count) (hn : n < 10 ^ count) (rest : List Char) :
    readDigits count (padded count n ++ rest) = .ok (n, rest) := by
  rw [readDigits_append (length_padded hcount hn) fun c hc => isDigit_of_mem_padded hc,
    ofDigitChars_padded]

theorem readOffset_isOffset {offset : Int} (h : readOffset cs = .ok (offset, rest)) :
    IsOffset offset := by
  cases cs with
  | nil => cases h
  | cons c cs =>
    unfold readOffset at h
    dsimp only at h
    split at h
    · cases h
      exact ⟨rfl, by decide⟩
    split at h
    · obtain ⟨⟨hours, cs₁⟩, -, h⟩ := bind_eq_ok.mp h
      dsimp only at h
      split at h
      · cases h
      obtain ⟨cs₂, -, h⟩ := bind_eq_ok.mp h
      obtain ⟨⟨minutes, cs₃⟩, -, h⟩ := bind_eq_ok.mp h
      dsimp only at h
      split at h
      · cases h
      split at h
      · cases h
      rename_i hday
      clear * - h hday
      unfold IsOffset
      cases h
      split <;> omega
    · cases h

/-- What text tells of an instant. -/
theorem read_eq_ok_leap {t : Instant} (h : read cs = .ok t) :
    ∃ c offset, c.beforeLeap.Ordinary ∧ IsOffset offset ∧ t = ofLocal c offset := by
  unfold read at h
  split at h
  · cases h
  obtain ⟨⟨year, cs₁⟩, hyear, h⟩ := bind_eq_ok.mp h
  obtain ⟨cs₂, -, h⟩ := bind_eq_ok.mp h
  obtain ⟨⟨month, cs₃⟩, -, h⟩ := bind_eq_ok.mp h
  obtain ⟨cs₄, -, h⟩ := bind_eq_ok.mp h
  obtain ⟨⟨day, cs₅⟩, -, h⟩ := bind_eq_ok.mp h
  dsimp only at h
  split at h
  · cases h
  rename_i hdate
  obtain ⟨cs₆, -, h⟩ := bind_eq_ok.mp h
  obtain ⟨⟨hour, cs₇⟩, -, h⟩ := bind_eq_ok.mp h
  obtain ⟨cs₈, -, h⟩ := bind_eq_ok.mp h
  obtain ⟨⟨minute, cs₉⟩, -, h⟩ := bind_eq_ok.mp h
  obtain ⟨cs₁₀, -, h⟩ := bind_eq_ok.mp h
  obtain ⟨⟨second, cs₁₁⟩, -, h⟩ := bind_eq_ok.mp h
  obtain ⟨⟨nanos, cs₁₂⟩, -, h⟩ := bind_eq_ok.mp h
  dsimp only at h
  split at h
  · cases h
  rename_i htime
  obtain ⟨⟨offset, cs₁₃⟩, hoffset, h⟩ := bind_eq_ok.mp h
  dsimp only at h
  split at h
  · have hyear := readDigits_lt hyear
    have hoffset := readOffset_isOffset hoffset
    clear * - h hdate htime hyear hoffset
    have hvalid : Date.isValid ⟨year, month, day⟩ = true := by simpa using hdate
    split at h
    · cases h
      refine ⟨_, _, ?_, hoffset, rfl⟩
      refine ⟨hvalid, ?_, ?_, ?_, ?_, ?_⟩ <;> dsimp only [LocalTime.beforeLeap] <;> omega
    · rename_i hleap
      cases h
      refine ⟨_, _, ?_, hoffset, rfl⟩
      refine ⟨hvalid, ?_, ?_, ?_, ?_, ?_⟩ <;> dsimp only [LocalTime.beforeLeap] <;> omega
  · cases h

/-- What text tells of an instant outside of leap seconds. -/
theorem read_eq_ok {t : Instant} (h : read cs = .ok t) (hnanos : t.nanos < 1000000000) :
    ∃ c offset, LocalTime.Ordinary c ∧ IsOffset offset ∧ t = ofLocal c offset := by
  obtain ⟨c, offset, hc, hoffset, rfl⟩ := read_eq_ok_leap h
  have hsame : c.beforeLeap = c := by
    have hmin : min c.nanos 999999999 = c.nanos := Nat.min_eq_left (Nat.le_of_lt_succ hnanos)
    unfold LocalTime.beforeLeap
    rw [hmin]
  exact ⟨c, offset, hsame ▸ hc, hoffset, rfl⟩

theorem twoDigits_padded (hn : n < 100) (rest : List Char) :
    twoDigits (padded 2 n ++ rest) = .ok (n, rest) := by
  have hlength : ¬ Text.byteLength (padded 2 n ++ rest) < 2 := by
    have hchars := @length_padded 2 n (by decide) hn
    have hbytes := Text.length_le_byteLength (padded 2 n ++ rest)
    rw [List.length_append] at hbytes
    omega
  rw [twoDigits, if_neg hlength, readDigits_padded (by decide) hn]

theorem readFraction_millis (hn : n < 1000) (hrest : ∀ c ∈ rest.head?, c.isDigit = false) :
    readFraction ('.' :: (padded 3 n ++ rest)) = .ok (n * 1000000, rest) := by
  have hlength := @length_padded 3 n (by decide) hn
  have hvalue := ofDigitChars_padded 3 n
  have hspan : (padded 3 n ++ rest).span Char.isDigit = (padded 3 n, rest) :=
    span_append (fun c hc => isDigit_of_mem_padded hc) hrest
  have htake : (padded 3 n).take 9 = padded 3 n := List.take_of_length_le (by omega)
  obtain ⟨c, cs, hcs⟩ := List.exists_cons_of_ne_nil (List.ne_nil_of_length_eq_add_one hlength)
  rw [hcs] at hlength hvalue hspan htake
  rw [List.cons_append] at hspan
  rw [hcs, List.cons_append, readFraction]
  · dsimp only
    rw [hspan]
    dsimp only
    rw [htake, hlength, hvalue]
    rfl
  · nofun

theorem readOffset_offsetText {offset : Int} (hday : offset.natAbs < 86400) :
    readOffset (offsetText offset) = .ok (wholeMinutes offset, []) := by
  have hhour := @twoDigits_padded (offset.natAbs / 60 / 60) (by omega)
    (':' :: padded 2 (offset.natAbs / 60 % 60))
  have hminute := @twoDigits_padded (offset.natAbs / 60 % 60) (by omega) []
  rw [List.append_nil] at hminute
  unfold offsetText
  split
  · subst offset
    rfl
  rename_i hzero
  have hsign : ∀ c, c = '+' ∨ c = '-' →
      readOffset (c :: padded 2 (offset.natAbs / 60 / 60) ++ ':' ::
        padded 2 (offset.natAbs / 60 % 60)) =
      .ok (if c = '+' then ((offset.natAbs / 60 * 60 : Nat) : Int)
        else -((offset.natAbs / 60 * 60 : Nat) : Int), []) := by
    intro c hc
    have hz : ¬ (c = 'Z' ∨ c = 'z') := by rcases hc with rfl | rfl <;> decide
    have hs : c = '+' ∨ c = '-' ∨ c = '−' := hc.imp_right .inl
    rw [List.cons_append, readOffset, if_neg hz, if_pos hs, hhour]
    change (twoDigits _ >>= _) = _
    rw [hminute]
    change (if 59 < _ then _ else _) = _
    rw [if_neg (by omega), if_neg (by omega)]
    have hvalue : ((offset.natAbs / 60 / 60 : Nat) : Int) * 3600 +
        ((offset.natAbs / 60 % 60 : Nat) : Int) * 60 = (offset.natAbs / 60 * 60 : Nat) := by
      omega
    rw [hvalue]
  unfold wholeMinutes
  dsimp only
  split
  · rw [hsign '-' (.inr rfl), if_neg (by decide)]
  · rw [hsign '+' (.inl rfl), if_pos rfl]

theorem written_ofLocal {c : LocalTime} (h : c.Ordinary) (offset : Int) :
    (ofLocal c offset).written = padded 4 c.date.year.natAbs ++ ('-' :: (padded 2 c.date.month ++
      ('-' :: (padded 2 c.date.day ++ ('T' :: (padded 2 c.hour ++ (':' :: (padded 2 c.minute ++
        (':' :: (padded 2 c.second ++ ('.' :: (padded 3 (c.nanos / 1000000) ++
          offsetText offset)))))))))))) := by
  have hyear : yearText c.date.year = padded 4 c.date.year.natAbs := by
    have hrange := h.year
    rw [yearText, if_neg (by omega), if_neg (by omega)]
  unfold written
  rw [localTime_ofLocal h]
  dsimp only
  rw [hyear, if_neg (Nat.not_le.mpr h.nanos), Nat.mod_eq_of_lt h.nanos]
  simp only [List.append_assoc, List.cons_append]
  rfl

theorem head_offsetText (offset : Int) : ∀ c ∈ (offsetText offset).head?, c.isDigit = false := by
  unfold offsetText
  split
  · rintro c ⟨⟩
    rfl
  · dsimp only
    split <;> rintro c ⟨⟩ <;> rfl

/-- Text with milliseconds reads back, but for the seconds of its offset. -/
theorem read_written_minutes {c : LocalTime} {offset : Int} (h : c.Ordinary)
    (hmillis : c.nanos % 1000000 = 0) (hoffset : offset.natAbs < 86400) :
    read (ofLocal c offset).written = .ok (ofLocal c (wholeMinutes offset)) := by
  obtain ⟨hyear₀, hyear₁⟩ := h.year
  obtain ⟨-, -, -, hmonth, -, hday⟩ := of_decide_eq_true h.date
  have hmonthLength := Date.monthLength_le c.date.year c.date.month
  have hhour := h.hour
  have hminute := h.minute
  have hsecond := h.second
  have hnanos := h.nanos
  have hdate : (⟨(c.date.year.natAbs : Nat), c.date.month, c.date.day⟩ : Date) = c.date := by
    rw [Int.natAbs_of_nonneg hyear₀]
  rw [written_ofLocal h]
  unfold read
  split
  · rename_i hshort
    have hchars := (Text.length_le_byteLength _).trans_lt hshort
    simp only [List.length_append, List.length_cons,
      @length_padded 4 c.date.year.natAbs (by decide) (by omega),
      @length_padded 2 c.date.month (by decide) (by omega),
      @length_padded 2 c.date.day (by decide) (by omega),
      @length_padded 2 c.hour (by decide) (by omega),
      @length_padded 2 c.minute (by decide) (by omega),
      @length_padded 2 c.second (by decide) (by omega)] at hchars
    omega
  refine bind_eq_ok.mpr ⟨_, readDigits_padded (by decide) (by omega) _, ?_⟩
  refine bind_eq_ok.mpr ⟨_, rfl, ?_⟩
  refine bind_eq_ok.mpr ⟨_, readDigits_padded (by decide) (by omega) _, ?_⟩
  refine bind_eq_ok.mpr ⟨_, rfl, ?_⟩
  refine bind_eq_ok.mpr ⟨_, readDigits_padded (by decide) (by omega) _, ?_⟩
  dsimp only
  split
  · rename_i hinvalid
    rw [hdate, h.date] at hinvalid
    cases hinvalid
  refine bind_eq_ok.mpr ⟨_, rfl, ?_⟩
  refine bind_eq_ok.mpr ⟨_, readDigits_padded (by decide) (by omega) _, ?_⟩
  refine bind_eq_ok.mpr ⟨_, rfl, ?_⟩
  refine bind_eq_ok.mpr ⟨_, readDigits_padded (by decide) (by omega) _, ?_⟩
  refine bind_eq_ok.mpr ⟨_, rfl, ?_⟩
  refine bind_eq_ok.mpr ⟨_, readDigits_padded (by decide) (by omega) _, ?_⟩
  refine bind_eq_ok.mpr ⟨_, readFraction_millis (by omega) (head_offsetText offset), ?_⟩
  dsimp only
  split
  · omega
  refine bind_eq_ok.mpr ⟨_, readOffset_offsetText hoffset, ?_⟩
  have hmillis' : c.nanos / 1000000 * 1000000 = c.nanos := by omega
  dsimp only
  rw [hdate, if_pos List.isEmpty_nil, if_neg (by omega), hmillis']

/-- Text with milliseconds reads back. -/
theorem read_written {c : LocalTime} {offset : Int} (h : c.Ordinary)
    (hmillis : c.nanos % 1000000 = 0) (hoffset : IsOffset offset) :
    read (ofLocal c offset).written = .ok (ofLocal c offset) := by
  rw [read_written_minutes h hmillis hoffset.2, hoffset.wholeMinutes_eq]

end

end Instant
end ClauseTemplates
