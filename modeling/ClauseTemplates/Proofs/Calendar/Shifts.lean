import ClauseTemplates.Proofs.Calendar.Instants

namespace ClauseTemplates

namespace Date

/-- The date a number of days later. -/
def plusDays (d : Date) (n : Int) : Date := ofDay (d.toDay + n)

/-- Dates that RFC 3339 text can show. -/
def InFourDigits (d : Date) : Prop := 0 ≤ d.year ∧ d.year ≤ 9999

section

variable {d : Date} {m n : Int}

theorem plusDays_zero (h : d.isValid = true) : d.plusDays 0 = d := by
  rw [plusDays, Int.add_zero, ofDay_toDay h]

theorem plusDays_plusDays (d : Date) (m n : Int) :
    (d.plusDays m).plusDays n = d.plusDays (m + n) := by
  unfold plusDays
  rw [toDay_ofDay, Int.add_assoc]

theorem natAbs_le_of_inFourDigits (h : (ofDay n).InFourDigits) : n.natAbs ≤ 4000000 := by
  obtain ⟨year, day, hdate, hn, hday, -⟩ := exists_march n
  rw [hdate] at h
  unfold InFourDigits ofMarch at h
  unfold epochDay at hn
  dsimp only at h
  split at h <;> omega

/-- Dates of four-digit years are not many days apart. -/
theorem natAbs_plusDays (h : d.isValid = true) (hd : d.InFourDigits)
    (hshifted : (d.plusDays n).InFourDigits) :
    d.toDay.natAbs ≤ 4000000 ∧ (d.toDay + n).natAbs ≤ 4000000 := by
  rw [← ofDay_toDay h] at hd
  exact ⟨natAbs_le_of_inFourDigits hd, natAbs_le_of_inFourDigits hshifted⟩

end

end Date

/-- The same time of day, a number of days later. -/
def LocalTime.plusDays (c : LocalTime) (n : Int) : LocalTime := { c with date := c.date.plusDays n }

theorem LocalTime.Ordinary.plusDays {c : LocalTime} {n : Int} (h : c.Ordinary)
    (hshifted : (c.date.plusDays n).InFourDigits) : (c.plusDays n).Ordinary where
  date := by
    have hdays := (Date.natAbs_plusDays h.date h.year hshifted).2
    exact Date.isValid_ofDay (by omega)
  year := hshifted
  hour := h.hour
  minute := h.minute
  second := h.second
  nanos := h.nanos

namespace Instant

section

variable {c : LocalTime} {offset n : Int}

theorem seconds_plusDays (c : LocalTime) (offset n : Int) :
    (ofLocal (c.plusDays n) offset).seconds = (ofLocal c offset).seconds + n * secondsPerDay := by
  unfold ofLocal LocalTime.plusDays Date.plusDays secondsPerDay
  dsimp only
  rw [Date.toDay_ofDay]
  omega

theorem addDays?_ofLocal (h : c.Ordinary) (hoffset : offset.natAbs < 86400)
    (hshifted : (c.date.plusDays n).InFourDigits) :
    (ofLocal c offset).addDays? n = some (ofLocal (c.plusDays n) offset) := by
  have hdays := Date.natAbs_plusDays h.date h.year hshifted
  have hhour := h.hour
  have hminute := h.minute
  have hsecond := h.second
  have hnanos : (ofLocal c offset).nanos = c.nanos := rfl
  have hleap : ¬ 1000000000 ≤ c.nanos := Nat.not_le.mpr h.nanos
  have hlimit : (100000000000 : Int) ≤ (power 2 63 - 1) / 86400000 := by decide
  have hvalid : (Date.ofDay ((ofLocal (c.plusDays n) offset).seconds / secondsPerDay)).isValid =
      true := by
    -- the date in UTC is the local one or next to it
    apply Date.isValid_ofDay
    rw [seconds_plusDays]
    unfold ofLocal secondsPerDay
    dsimp only
    omega
  unfold addDays?
  simp only [hnanos, hleap, false_and, if_false]
  rw [if_neg (by omega), ← seconds_plusDays, if_pos hvalid]
  rfl

theorem daysUntil_plusDays (c : LocalTime) (offset n : Int) :
    (ofLocal c offset).daysUntil (ofLocal (c.plusDays n) offset) = n := by
  have hnanos : (ofLocal (c.plusDays n) offset).nanos = (ofLocal c offset).nanos := rfl
  have hofDay : (ofLocal (c.plusDays n) offset).seconds % secondsPerDay =
      (ofLocal c offset).seconds % secondsPerDay := by
    rw [seconds_plusDays, Int.add_mul_emod_self_right]
  have hspan : (ofLocal (c.plusDays n) offset).seconds - (ofLocal c offset).seconds + 0 =
      n * secondsPerDay := by
    rw [seconds_plusDays]
    omega
  unfold daysUntil
  dsimp only
  rw [hofDay, if_neg (by omega), if_neg (by omega), hspan, hnanos, Int.sub_self, Int.add_zero,
    Int.mul_assoc, Int.mul_tdiv_cancel n (by decide)]

/-- The days back from an instant to another are negative, also in leap seconds. -/
theorem daysUntil_comm (s t : Instant) : s.daysUntil t = -t.daysUntil s := by
  unfold daysUntil
  dsimp only
  rw [← Int.neg_tdiv]
  congr 1
  unfold nanosPerSecond
  split_ifs <;> omega

end

end Instant

end ClauseTemplates
