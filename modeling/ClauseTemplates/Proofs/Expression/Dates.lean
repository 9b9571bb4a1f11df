import ClauseTemplates.Proofs.Calendar.Shifts
import ClauseTemplates.Proofs.Expression.Arithmetic

namespace ClauseTemplates

namespace Evaluation

variable {s : String} {t shifted : Instant} {n : Int}

theorem dateArg_str (h : Instant.read s.toList = .ok t) : dateArg (.str s) = .ok t := by
  unfold dateArg
  dsimp only
  rw [h]

theorem shiftDays_int (hn : n.natAbs ≤ power 2 53) (h : t.addDays? n = some shifted)
    (shown : Json) : shiftDays t shown (Double.ofInt n) = .ok (.str shifted.text) := by
  unfold shiftDays
  rw [Double.isIntegral_ofInt hn, Double.truncate_ofInt hn, h]
  rfl

end Evaluation

namespace Expression

open Evaluation Instant

/-- Expressions whose value is the RFC 3339 text of an instant. -/
def Denotes (scope : Scope) (e : Expression) (t : Instant) : Prop :=
  ∃ s : String, e.evaluate scope = .ok (.str s) ∧ Instant.read s.toList = .ok t

section

variable {scope : Scope} {a b date days : Expression} {s t : Instant} {c : LocalTime}
  {offset n : Int}

theorem evaluateAll_pair {x y : Json} (ha : a.evaluate scope = .ok x)
    (hb : b.evaluate scope = .ok y) : evaluateAll scope [a, b] = .ok [x, y] := by
  simp only [evaluateAll, ha, hb]
  rfl

theorem evaluate_daysBetween (ha : a.Denotes scope s) (hb : b.Denotes scope t) :
    (call "daysBetween" [a, b]).evaluate scope = .ok (.int (s.daysUntil t)) := by
  obtain ⟨first, hfirst, hs⟩ := ha
  obtain ⟨last, hlast, ht⟩ := hb
  have hcall : Evaluation.call "daysBetween" [.str first, .str last] = (do
      let first ← dateArg (.str first)
      pure (.int (first.daysUntil (← dateArg (.str last))))) := rfl
  rw [evaluate_call (evaluateAll_pair hfirst hlast), hcall, dateArg_str hs, dateArg_str ht]
  rfl

theorem evaluate_addDays (hdate : date.Denotes scope (ofLocal c offset))
    (hdays : days.evaluate scope = .ok (.int n)) (hc : c.Ordinary) (hoffset : offset.natAbs < 86400)
    (hshifted : (c.date.plusDays n).InFourDigits) :
    (call "addDays" [date, days]).evaluate scope =
      .ok (.str (ofLocal (c.plusDays n) offset).text) := by
  obtain ⟨shown, hshown, hread⟩ := hdate
  have hcall : Evaluation.call "addDays" [.str shown, .int n] = (do
      let date ← dateArg (.str shown)
      shiftDays date (.str shown) (← numberArg "addDays" (.int n))) := rfl
  have hnumber : numberArg "addDays" (.int n) = .ok (Double.ofInt n) := rfl
  have hsmall : n.natAbs ≤ power 2 53 := by
    have hbounds := Date.natAbs_plusDays hc.date hc.year hshifted
    have hlimit : 8000000 ≤ power 2 53 := by decide
    omega
  rw [evaluate_call (evaluateAll_pair hshown hdays), hcall]
  refine bind_eq_ok.mpr ⟨_, dateArg_str hread, bind_eq_ok.mpr ⟨_, hnumber, ?_⟩⟩
  exact shiftDays_int hsmall (addDays?_ofLocal hc hoffset hshifted) _

theorem denotes_addDays (hdate : date.Denotes scope (ofLocal c offset))
    (hdays : days.evaluate scope = .ok (.int n)) (hc : c.Ordinary)
    (hmillis : c.nanos % 1000000 = 0) (hoffset : IsOffset offset)
    (hshifted : (c.date.plusDays n).InFourDigits) :
    (call "addDays" [date, days]).Denotes scope (ofLocal (c.plusDays n) offset) := by
  refine ⟨_, evaluate_addDays hdate hdays hc hoffset.2 hshifted, ?_⟩
  rw [Instant.text, String.toList_ofList]
  exact read_written (hc.plusDays hshifted) hmillis hoffset

end

section

variable {scope : Scope} {date first second both a b : Expression} {t u v : Instant} {m n : Int}

/-- Days that are added one after the other add up, and those between a date and the later one are
the days that were added. The time of day and the offset stay. -/
theorem evaluate_dates (hdate : date.Denotes scope t) (hleap : t.nanos < 1000000000)
    (hmillis : t.nanos % 1000000 = 0) (hfirst : first.evaluate scope = .ok (.int m))
    (hsecond : second.evaluate scope = .ok (.int n))
    (hboth : both.evaluate scope = .ok (.int (m + n)))
    (hm : (t.localTime.date.plusDays m).InFourDigits)
    (hn : (t.localTime.date.plusDays n).InFourDigits)
    (hmn : (t.localTime.date.plusDays (m + n)).InFourDigits)
    (ha : a.Denotes scope u) (hb : b.Denotes scope v) :
    (call "daysBetween" [date, call "addDays" [date, second]]).evaluate scope = .ok (.int n) ∧
    (∃ shown, (call "addDays" [call "addDays" [date, first], second]).evaluate scope = .ok shown ∧
      (call "addDays" [date, both]).evaluate scope = .ok shown) ∧
    (∃ shifted, (call "addDays" [date, second]).Denotes scope shifted ∧
      shifted.offset = t.offset ∧ shifted.localTime = t.localTime.plusDays n) ∧
    (call "addDays" [date, literal (.int 0)]).Denotes scope t ∧
    ∃ k, (call "daysBetween" [a, b]).evaluate scope = .ok (.int k) ∧
      (call "daysBetween" [b, a]).evaluate scope = .ok (.int (-k)) := by
  have ⟨_, _, hread⟩ := hdate
  obtain ⟨c, offset, hc, hoffset, rfl⟩ := read_eq_ok hread hleap
  rw [localTime_ofLocal hc] at hm hn hmn ⊢
  have hplain : c.plusDays 0 = c := by
    unfold LocalTime.plusDays
    rw [Date.plusDays_zero hc.date]
  have htwice : (c.plusDays m).plusDays n = c.plusDays (m + n) := by
    unfold LocalTime.plusDays
    rw [Date.plusDays_plusDays]
  have hafter : ((c.plusDays m).date.plusDays n).InFourDigits := by
    have hdate : (c.plusDays m).date.plusDays n = c.date.plusDays (m + n) :=
      Date.plusDays_plusDays c.date m n
    rwa [hdate]
  have hzero : (c.date.plusDays 0).InFourDigits := by
    rw [Date.plusDays_zero hc.date]
    exact hc.year
  have hshifted := denotes_addDays hdate hsecond hc hmillis hoffset hn
  have hboth := evaluate_addDays hdate hboth hc hoffset.2 hmn
  have hlater := evaluate_addDays (denotes_addDays hdate hfirst hc hmillis hoffset hm) hsecond
    (hc.plusDays hm) hoffset.2 hafter
  have hsame := denotes_addDays hdate (evaluate.eq_1 scope (.int 0)) hc hmillis hoffset hzero
  rw [htwice] at hlater
  rw [hplain] at hsame
  refine ⟨?_, ⟨_, hlater, hboth⟩, ⟨_, hshifted, rfl, ?_⟩, hsame, _, evaluate_daysBetween ha hb, ?_⟩
  · rw [evaluate_daysBetween hdate hshifted, daysUntil_plusDays]
  · exact localTime_ofLocal (hc.plusDays hn) offset
  · rw [evaluate_daysBetween hb ha, daysUntil_comm v u]

end

namespace Deadlines

def scope : Scope := .ofData (.obj [("signed", .str "2024-02-28T23:30:00.250-05:00"),
  ("closed", .str "2016-12-31T23:59:60Z"), ("grace", .int 2)]) ⟨0, 0, 0⟩

/-- The evening before a leap day, west of Greenwich. -/
def signed : Instant := ⟨1709181000, 250000000, -18000⟩

/-- A leap second. -/
def closed : Instant := ⟨1483228799, 1000000000, 0⟩

theorem evaluate_dates_deadlines :
    (ident "signed").Denotes scope signed ∧ (ident "closed").Denotes scope closed ∧
      signed.nanos < 1000000000 ∧ signed.nanos % 1000000 = 0 ∧
      (signed.localTime.date.plusDays 2).InFourDigits ∧
      (signed.localTime.date.plusDays (-3)).InFourDigits ∧
      (signed.localTime.date.plusDays (-1)).InFourDigits ∧
      (∃ shifted, (call "addDays" [ident "signed", neg (literal (.int 3))]).Denotes scope shifted ∧
        shifted.localTime.date = ⟨2024, 2, 25⟩) ∧
      ∃ k, (call "daysBetween" [ident "signed", ident "closed"]).evaluate scope = .ok (.int k) := by
  have hsigned : (ident "signed").Denotes scope signed := ⟨_, rfl, by rfl⟩
  have hclosed : (ident "closed").Denotes scope closed := ⟨_, rfl, by rfl⟩
  have hleap : signed.nanos < 1000000000 := by decide
  have hmillis : signed.nanos % 1000000 = 0 := by decide
  have hm : (signed.localTime.date.plusDays 2).InFourDigits := by
    unfold Date.InFourDigits
    decide
  have hn : (signed.localTime.date.plusDays (-3)).InFourDigits := by
    unfold Date.InFourDigits
    decide
  have hmn : (signed.localTime.date.plusDays (-1)).InFourDigits := by
    unfold Date.InFourDigits
    decide
  obtain ⟨-, -, ⟨shifted, hshifted, -, hlocal⟩, -, k, hk, -⟩ :=
    @evaluate_dates scope (ident "signed") (ident "grace") (neg (literal (.int 3)))
      (neg (literal (.int 1))) (ident "signed") (ident "closed") signed signed closed 2 (-3)
      hsigned hleap hmillis rfl rfl rfl hm hn hmn hsigned hclosed
  refine ⟨hsigned, hclosed, hleap, hmillis, hm, hn, hmn, ⟨shifted, hshifted, ?_⟩, k, hk⟩
  rw [hlocal]
  decide

end Deadlines

end Expression

end ClauseTemplates
