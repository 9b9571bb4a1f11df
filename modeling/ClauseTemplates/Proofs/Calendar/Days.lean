import ClauseTemplates.Calendar.Instant
import Mathlib.Tactic.SplitIfs
import Mathlib.Tactic.IntervalCases

namespace ClauseTemplates

namespace Date

variable {era century leap year day : Int}

theorem monthLength_le (year : Int) (month : Nat) : monthLength year month ≤ 31 := by
  unfold monthLength
  split_ifs <;> decide

/-- The year of an era of four hundred years, found from a day of the era. A year has a day 365 if
it ends with the leap day. -/
theorem yearOfEra_eq (hcentury : 0 ≤ century ∧ century ≤ 3) (hleap : 0 ≤ leap ∧ leap ≤ 24)
    (hyear : 0 ≤ year ∧ year ≤ 3) (hday : 0 ≤ day ∧ day ≤ 365)
    (hlast : day < 365 ∨ year = 3 ∧ (leap < 24 ∨ century = 3)) :
    let dayOfEra := 36524 * century + 1461 * leap + 365 * year + day
    (dayOfEra - dayOfEra / 1460 + dayOfEra / 36524 - dayOfEra / 146096) / 365 =
      100 * century + 4 * leap + year := by
  intro dayOfEra
  have hdef : dayOfEra = 36524 * century + 1461 * leap + 365 * year + day := rfl
  clear_value dayOfEra
  have hcenturies : dayOfEra / 36524 - dayOfEra / 146096 = century := by
    by_cases hend : dayOfEra = 146096
    · omega
    · have hera : dayOfEra / 146096 = 0 := by omega
      omega
  have hleaps : dayOfEra / 1460 = 25 * century + leap +
      if 1460 ≤ 24 * century + leap + 365 * year + day then 1 else 0 := by
    split <;> omega
  have hrest : dayOfEra - dayOfEra / 1460 + dayOfEra / 36524 - dayOfEra / 146096 =
      dayOfEra - dayOfEra / 1460 + century := by omega
  rw [hrest, hleaps]
  split <;> omega

/-- The date on a day of a year counted from March. -/
def ofMarch (year day : Int) : Date :=
  let marchMonth := (5 * day + 2) / 153
  let month := if marchMonth < 10 then marchMonth + 3 else marchMonth - 9
  ⟨year + if month ≤ 2 then 1 else 0, month.toNat, (day - (153 * marchMonth + 2) / 5 + 1).toNat⟩

/-- The days in an era of four hundred years before a year. -/
theorem daysOfEra (hleap : 0 ≤ leap ∧ leap ≤ 24) (hyear : 0 ≤ year ∧ year ≤ 3) :
    let yearOfEra := 100 * century + 4 * leap + year
    365 * yearOfEra + yearOfEra / 4 - yearOfEra / 100 =
      36524 * century + 1461 * leap + 365 * year := by
  intro yearOfEra
  have hfourth : yearOfEra / 4 = 25 * century + leap := by omega
  have hhundredth : yearOfEra / 100 = century := by omega
  rw [hfourth, hhundredth]
  omega

theorem ofDay_eq (hcentury : 0 ≤ century ∧ century ≤ 3) (hleap : 0 ≤ leap ∧ leap ≤ 24)
    (hyear : 0 ≤ year ∧ year ≤ 3) (hday : 0 ≤ day ∧ day ≤ 365)
    (hlast : day < 365 ∨ year = 3 ∧ (leap < 24 ∨ century = 3)) :
    ofDay (146097 * era + (36524 * century + 1461 * leap + 365 * year + day) - epochDay) =
      ofMarch (400 * era + (100 * century + 4 * leap + year)) day := by
  have hbound : 0 ≤ 36524 * century + 1461 * leap + 365 * year + day ∧
      36524 * century + 1461 * leap + 365 * year + day < 146097 := by omega
  have hyears := yearOfEra_eq hcentury hleap hyear hday hlast
  have hdays := @daysOfEra century leap year hleap hyear
  dsimp only at hyears hdays
  generalize 36524 * century + 1461 * leap + 365 * year = before at *
  have hera : (146097 * era + (before + day)) / 146097 = era := by omega
  have hdayOfEra : (146097 * era + (before + day)) % 146097 = before + day := by omega
  have hrest : before + day - before = day := by omega
  unfold ofDay ofMarch
  simp only [Int.sub_add_cancel, hera, hdayOfEra, hyears, hdays, hrest, Int.add_comm (400 * era)]

/-- The year counted from March that a date lies in. -/
def marchYear (d : Date) : Int := if d.month ≤ 2 then d.year - 1 else d.year

/-- The days of that year before a date. -/
def marchDay (d : Date) : Int := (153 * ((d.month + 9) % 12 : Nat) + 2) / 5 + d.day - 1

theorem toDay_eq (d : Date) :
    d.toDay = 365 * d.marchYear + d.marchYear / 4 - d.marchYear / 100 + d.marchYear / 400 +
      d.marchDay - epochDay := rfl

section

variable {d : Date}

/-- The month counted from March, found from the days before a date. -/
theorem marchMonth_eq (hmonth : 1 ≤ d.month ∧ d.month ≤ 12)
    (hday : 1 ≤ d.day ∧ d.day ≤ monthLength d.year d.month) :
    (5 * d.marchDay + 2) / 153 = ((d.month + 9) % 12 : Nat) := by
  obtain ⟨year, month, day⟩ := d
  obtain ⟨hfirst, hlast⟩ := hmonth
  unfold monthLength at hday
  have hfebruary : (if isLeap year then 29 else 28) ≤ 29 := by split_ifs <;> decide
  unfold marchDay
  dsimp only at *
  interval_cases month <;> simp at hday ⊢ <;> omega

theorem ofMarch_march (hmonth : 1 ≤ d.month ∧ d.month ≤ 12)
    (hday : 1 ≤ d.day ∧ d.day ≤ monthLength d.year d.month) :
    ofMarch d.marchYear d.marchDay = d := by
  have hmarch := marchMonth_eq hmonth hday
  have hback : (if (((d.month + 9) % 12 : Nat) : Int) < 10
      then (((d.month + 9) % 12 : Nat) : Int) + 3
      else (((d.month + 9) % 12 : Nat) : Int) - 9) = d.month := by
    by_cases hearly : d.month ≤ 2
    · have hindex : (d.month + 9) % 12 = d.month + 9 := Nat.mod_eq_of_lt (by omega)
      rw [hindex, if_neg (by omega)]
      omega
    · have hindex : (d.month + 9) % 12 = d.month - 3 := by omega
      rw [hindex, if_pos (by omega)]
      omega
  have hyear : d.marchYear + (if (d.month : Int) ≤ 2 then 1 else 0) = d.year := by
    unfold marchYear
    split_ifs <;> omega
  have hrest : d.marchDay - (153 * (((d.month + 9) % 12 : Nat) : Int) + 2) / 5 + 1 = d.day := by
    unfold marchDay
    omega
  unfold ofMarch
  simp only [hmarch, hback, hyear, hrest, Int.toNat_natCast]

/-- Only a leap day is day 365 of a year counted from March. -/
theorem marchDay_le (hmonth : 1 ≤ d.month ∧ d.month ≤ 12)
    (hday : 1 ≤ d.day ∧ d.day ≤ monthLength d.year d.month) :
    0 ≤ d.marchDay ∧ d.marchDay ≤ 364 ∨ d.marchDay = 365 ∧ isLeap (d.marchYear + 1) = true := by
  obtain ⟨year, month, day⟩ := d
  obtain ⟨hfirst, hlast⟩ := hmonth
  unfold monthLength at hday
  unfold marchDay marchYear
  dsimp only at *
  by_cases hfebruary : month = 2
  · subst hfebruary
    rw [if_pos rfl] at hday
    rw [if_pos (le_refl 2), Int.sub_add_cancel]
    split_ifs at hday with hleap
    · simp only [hleap, and_true]
      omega
    · omega
  · have hlength := monthLength_le year month
    unfold monthLength at hlength
    omega

theorem ofDay_toDay (h : d.isValid = true) : ofDay d.toDay = d := by
  obtain ⟨-, -, hfirst, hlast, hday⟩ := of_decide_eq_true h
  have hdays := marchDay_le ⟨hfirst, hlast⟩ hday
  have hleap : d.marchDay < 365 ∨ d.marchYear % 4 = 3 ∧
      (d.marchYear % 100 / 4 < 24 ∨ d.marchYear % 400 / 100 = 3) := by
    refine hdays.imp (fun h => by omega) fun ⟨_, hleap⟩ => ?_
    simp only [isLeap, Bool.and_eq_true, Bool.or_eq_true, beq_iff_eq, bne_iff_ne] at hleap
    omega
  have hparts := @ofDay_eq (d.marchYear / 400) (d.marchYear % 400 / 100) (d.marchYear % 100 / 4)
    (d.marchYear % 4) d.marchDay (by omega) (by omega) (by omega) (by omega) hleap
  have hyear : 400 * (d.marchYear / 400) + (100 * (d.marchYear % 400 / 100) +
      4 * (d.marchYear % 100 / 4) + d.marchYear % 4) = d.marchYear := by omega
  have hday : 146097 * (d.marchYear / 400) + (36524 * (d.marchYear % 400 / 100) +
      1461 * (d.marchYear % 100 / 4) + 365 * (d.marchYear % 4) + d.marchDay) - epochDay =
      d.toDay := by
    rw [toDay_eq]
    omega
  rw [hyear, hday] at hparts
  rw [hparts, ofMarch_march ⟨hfirst, hlast⟩ ‹_›]

end

section

/-- The month counted from March that a day of a year counted from March lies in. -/
theorem month_ofMarch (hday : 0 ≤ day ∧ day ≤ 365) :
    (((ofMarch year day).month + 9) % 12 : Nat) = (5 * day + 2) / 153 := by
  unfold ofMarch
  dsimp only
  split <;> omega

theorem marchDay_ofMarch (hday : 0 ≤ day ∧ day ≤ 365) : (ofMarch year day).marchDay = day := by
  unfold marchDay
  rw [month_ofMarch hday]
  unfold ofMarch
  dsimp only
  omega

theorem marchYear_ofMarch (hday : 0 ≤ day ∧ day ≤ 365) : (ofMarch year day).marchYear = year := by
  unfold ofMarch marchYear
  dsimp only
  split <;> split <;> omega

theorem isValid_ofMarch (hyear : firstYear ≤ year ∧ year < lastYear)
    (hday : 0 ≤ day ∧ day ≤ 365) (hleap : day = 365 → isLeap (year + 1) = true) :
    (ofMarch year day).isValid = true := by
  have hmonth : 0 ≤ (5 * day + 2) / 153 ∧ (5 * day + 2) / 153 ≤ 11 := by omega
  have hfebruary : day - 336 ≤ (if isLeap (year + 1) then 29 else 28 : Nat) := by
    split
    · omega
    · have hlast : day ≠ 365 := fun h => ‹¬ _› (hleap h)
      omega
  unfold ofMarch isValid monthLength
  apply decide_eq_true
  generalize hmarch : (5 * day + 2) / 153 = month at *
  obtain ⟨hmonth₀, hmonth₁⟩ := hmonth
  dsimp only
  -- only in February, the eleventh month from March, does the last day depend on the year
  interval_cases month <;> simp at hfebruary ⊢ <;> omega

/-- Every day lies in a year counted from March, and on its day 365 only if that is a leap day. -/
theorem exists_march (n : Int) : ∃ year day : Int, ofDay n = ofMarch year day ∧
    n = 365 * year + year / 4 - year / 100 + year / 400 + day - epochDay ∧
    (0 ≤ day ∧ day ≤ 365) ∧ (day = 365 → isLeap (year + 1) = true) := by
  obtain ⟨era, hera⟩ : ∃ era, era = (n + epochDay) / 146097 := ⟨_, rfl⟩
  obtain ⟨dayOfEra, hdayOfEra⟩ : ∃ day, day = (n + epochDay) % 146097 := ⟨_, rfl⟩
  obtain ⟨century, hcentury⟩ : ∃ century, century = min 3 (dayOfEra / 36524) := ⟨_, rfl⟩
  obtain ⟨leap, hleap⟩ : ∃ leap, leap = (dayOfEra - 36524 * century) / 1461 := ⟨_, rfl⟩
  obtain ⟨rest, hrest⟩ : ∃ rest, rest = (dayOfEra - 36524 * century) % 1461 := ⟨_, rfl⟩
  obtain ⟨year, hyear⟩ : ∃ year, year = min 3 (rest / 365) := ⟨_, rfl⟩
  obtain ⟨day, hday⟩ : ∃ day, day = rest - 365 * year := ⟨_, rfl⟩
  have hcenturies : 0 ≤ century ∧ century ≤ 3 := by omega
  have hleaps : 0 ≤ leap ∧ leap ≤ 24 := by omega
  have hyears : 0 ≤ year ∧ year ≤ 3 := by omega
  have hdays : 0 ≤ day ∧ day ≤ 365 := by omega
  have hlast : day < 365 ∨ year = 3 ∧ (leap < 24 ∨ century = 3) := by omega
  have hn : 146097 * era + (36524 * century + 1461 * leap + 365 * year + day) - epochDay = n := by
    omega
  have hparts := @ofDay_eq era century leap year day hcenturies hleaps hyears hdays hlast
  rw [hn] at hparts
  clear hera hdayOfEra hcentury hleap hrest hyear hday
  refine ⟨_, day, hparts, ?_, hdays, ?_⟩
  · omega
  · intro h
    simp only [isLeap, Bool.and_eq_true, Bool.or_eq_true, beq_iff_eq, bne_iff_ne]
    omega

theorem toDay_ofDay (n : Int) : (ofDay n).toDay = n := by
  obtain ⟨year, day, hdate, hn, hday, -⟩ := exists_march n
  rw [hdate, toDay_eq, marchYear_ofMarch hday, marchDay_ofMarch hday, ← hn]

theorem isValid_ofDay {n : Int} (h : n.natAbs ≤ 90000000) : (ofDay n).isValid = true := by
  obtain ⟨year, day, hdate, hn, hday, hleap⟩ := exists_march n
  have hyear : firstYear ≤ year ∧ year < lastYear := by
    unfold firstYear lastYear
    unfold epochDay at hn
    omega
  rw [hdate]
  exact isValid_ofMarch hyear hday hleap

end

end Date
end ClauseTemplates
