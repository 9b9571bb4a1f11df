import ClauseTemplates.Proofs.Scan.Rounds

namespace ClauseTemplates

namespace Scan

theorem Cursor.Before.irrefl {τ : Type} (c : Cursor τ) : ¬ c.Before c := fun h =>
  Nat.lt_irrefl _ h.length_lt

/-- Where nothing is read twice over, nothing is read by either. -/
theorem Cursor.Passes.eq_of_return {τ : Type} {c mid : Cursor τ} {v w : List τ} (h : c.Passes v mid)
    (h' : mid.Passes w c) : mid = c := by
  rcases h.before_or_eq with hbefore | heq
  · exact absurd (hbefore.of_passes h') (Cursor.Before.irrefl c)
  · exact heq

end Scan

namespace Scanner

open Scan

variable {τ α β : Type} {p q : Scanner τ α} {f : α → Scanner τ β}

/-- Reads some text wherever it succeeds. -/
def Consumes (p : Scanner τ α) : Prop := ∀ c a next, read? p c = some (a, next) → c.Before next

/-- What it reads of no text at one place, it reads at every place. -/
def Uniform (p : Scanner τ α) : Prop :=
  ∀ c a, read? p c = some (a, c) → ∀ d, read? p d = some (a, d)

/-- Succeeds everywhere. -/
def Total (p : Scanner τ α) : Prop := ∀ c, ∃ a next, read? p c = some (a, next)

theorem Consumes.bind (hp : Consumes p) (hf : ∀ a, Advances (f a)) : Consumes (p >>= f) := by
  intro c b next h
  rw [read?_bind] at h
  obtain ⟨⟨a, mid⟩, ha, hb⟩ := Option.bind_eq_some_iff.mp h
  obtain ⟨w, hw⟩ := hf a mid b next hb
  exact (hp c a mid ha).of_passes hw

theorem Advances.bind_consumes (hp : Advances p) (hf : ∀ a, Consumes (f a)) :
    Consumes (p >>= f) := by
  intro c b next h
  rw [read?_bind] at h
  obtain ⟨⟨a, mid⟩, ha, hb⟩ := Option.bind_eq_some_iff.mp h
  obtain ⟨w, hw⟩ := hp c a mid ha
  exact hw.before (hf a mid b next hb)

theorem Consumes.orElse (hp : Consumes p) (hq : Consumes q) : Consumes (orElse p q) := by
  intro c a next h
  rw [read?_orElse] at h
  rcases Option.or_eq_some_iff.mp h with hr | ⟨_, hr⟩
  · exact hp c a next hr
  · exact hq c a next hr

theorem Consumes.tryMap (hp : Consumes p) (g : α → Except String β) : Consumes (p.tryMap g) := by
  intro c b next h
  obtain ⟨a, ha, _⟩ := read?_tryMap_eq_some.mp h
  exact hp c a next ha

theorem consumes_exactly [DecidableEq τ] {ts : List τ} (h : ts ≠ []) : Consumes (exactly ts) :=
  fun _ _ _ hread => ⟨ts, h, read?_exactly_some hread⟩

theorem consumes_satisfying (accept : τ → Bool) : Consumes (satisfying accept) := by
  intro c a next h
  obtain ⟨offset, rest⟩ := c
  rw [satisfying, read?_token] at h
  cases rest with
  | nil => cases h
  | cons t rest =>
    obtain ⟨b, _, hb⟩ := Option.map_eq_some_iff.mp h
    cases hb
    exact ⟨[t], List.cons_ne_nil t [], rfl, rfl⟩

theorem consumes_oneOf [DecidableEq τ] {choices : List (List τ × α)}
    (h : ∀ choice ∈ choices, choice.1 ≠ []) : Consumes (oneOf choices) := by
  intro c a next hread
  obtain ⟨text, hmem, hpass⟩ := read?_oneOf_mem hread
  exact ⟨text, h _ hmem, hpass⟩

/-- The first of several rounds that there have to be reads some text. -/
theorem consumes_rounds? (hp : Consumes p) {least most : Nat} (hleast : 0 < least) {c next : Cursor τ}
    {as : List α} (h : rounds? p least (most + 1) 0 c = some (as, next)) : c.Before next := by
  have hadvances : Advances p := fun c a next hread =>
    let ⟨w, _, hw⟩ := hp c a next hread
    ⟨w, hw⟩
  unfold rounds? at h
  cases hr : read? p c with
  | none => simp [hr, hleast] at h
  | some x =>
    have hbefore := hp c x.1 x.2 hr
    simp only [hr, if_pos hbefore.offset_lt] at h
    obtain ⟨y, hy, hn⟩ := Option.map_eq_some_iff.mp h
    cases hn
    obtain ⟨w, hw⟩ := rounds?_passes hadvances hy
    exact hbefore.of_passes hw

theorem Consumes.many (hp : Consumes p) {least : Nat} (hleast : 0 < least) :
    Consumes (many p least) := by
  intro c as next h
  rw [read?_many] at h
  exact consumes_rounds? hp hleast h

theorem Consumes.between (hp : Consumes p) {least most : Nat} (hleast : 0 < least)
    (hmost : 0 < most) : Consumes (between p least most) := by
  intro c as next h
  obtain ⟨most, rfl⟩ : ∃ n, most = n + 1 := ⟨most - 1, by omega⟩
  rw [read?_between] at h
  exact consumes_rounds? hp hleast h

theorem Consumes.uniform (hp : Consumes p) : Uniform p := fun c a h =>
  absurd (hp c a c h) (Cursor.Before.irrefl c)

theorem uniform_pure (a : α) : Uniform (pure a : Scanner τ α) := by
  intro c b h d
  cases h
  rfl

theorem uniform_exactly [DecidableEq τ] (ts : List τ) : Uniform (exactly ts) := by
  by_cases h : ts = []
  · subst h
    exact uniform_pure ()
  · exact (consumes_exactly h).uniform

theorem Uniform.bind (hp : Uniform p) (hadvances : Advances p) (hf : ∀ a, Uniform (f a))
    (hlater : ∀ a, Advances (f a)) : Uniform (p >>= f) := by
  intro c b h d
  rw [read?_bind] at h ⊢
  obtain ⟨⟨a, mid⟩, ha, hb⟩ := Option.bind_eq_some_iff.mp h
  obtain ⟨v, hv⟩ := hadvances c a mid ha
  obtain ⟨w, hw⟩ := hlater a mid b c hb
  obtain rfl := hv.eq_of_return hw
  rw [hp _ a ha d]
  exact hf a _ b hb d

theorem Uniform.tryMap (hp : Uniform p) (g : α → Except String β) : Uniform (p.tryMap g) := by
  intro c b h d
  obtain ⟨a, ha, hb⟩ := read?_tryMap_eq_some.mp h
  exact read?_tryMap_eq_some.mpr ⟨a, hp c a ha d, hb⟩

theorem Uniform.total (hp : Uniform p) {c : Cursor τ} {a : α} (h : read? p c = some (a, c)) :
    Total p := fun d => ⟨a, d, hp c a h d⟩

theorem Total.bind (hp : Total p) (hf : ∀ a, Total (f a)) : Total (p >>= f) := by
  intro c
  obtain ⟨a, mid, ha⟩ := hp c
  obtain ⟨b, next, hb⟩ := hf a mid
  refine ⟨b, next, ?_⟩
  rw [read?_bind, ha]
  exact hb

theorem total_pure (a : α) : Total (pure a : Scanner τ α) := fun c => ⟨a, c, rfl⟩

theorem total_optional (p : Scanner τ α) : Total (optional p) := by
  intro c
  rw [read?_optional]
  cases read? p c with
  | none => exact ⟨none, c, rfl⟩
  | some x => exact ⟨some x.1, x.2, rfl⟩

theorem Total.orElse (h : Total p ∨ Total q) : Total (orElse p q) := by
  intro c
  rw [read?_orElse]
  cases hp : read? p c with
  | some x => exact ⟨x.1, x.2, rfl⟩
  | none =>
    rcases h with h | h
    · obtain ⟨a, next, ha⟩ := h c
      rw [hp] at ha
      cases ha
    · obtain ⟨a, next, ha⟩ := h c
      exact ⟨a, next, ha⟩

theorem Total.located (hp : Total p) (g : α → Nat → β) : Total (located p g) := by
  intro c
  obtain ⟨a, next, ha⟩ := hp c
  refine ⟨g a c.offset, next, ?_⟩
  rw [read?_located, ha]
  rfl

/-- A repetition succeeds where it needs no items, or where the first one is always there. -/
theorem total_separated {separator : Scanner τ Unit} {nonempty : Bool}
    (h : nonempty = true → Total p) : Total (separated p separator nonempty false) := by
  intro c
  rw [read?_separated]
  cases hp : read? p c with
  | some x => exact ⟨_, _, rfl⟩
  | none =>
    cases nonempty with
    | false => exact ⟨[], c, rfl⟩
    | true =>
      obtain ⟨a, next, ha⟩ := h rfl c
      rw [hp] at ha
      cases ha

/-- A repetition without separators whose items are there at every place goes on for ever. -/
theorem not_loop_of_total [DecidableEq τ] (hp : Total p) {c last : Cursor τ} {as : List α} :
    ¬ Loop p (exactly []) c as last := by
  intro hloop
  induction hloop with
  | @stop c hnone =>
    obtain ⟨a, next, ha⟩ := hp c
    exact hnone a next ⟨c, rfl, ha⟩
  | round _ _ ih => exact ih

end Scanner

end ClauseTemplates
