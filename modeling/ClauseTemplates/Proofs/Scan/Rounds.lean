import ClauseTemplates.Proofs.Scan.Separated
import Mathlib.Logic.Relation

namespace ClauseTemplates

namespace Scan

variable {τ : Type} {a b c next : Cursor τ} {w : List τ}

/-- The second place stands behind the first, with some text between them. -/
def Cursor.Before (c next : Cursor τ) : Prop := ∃ w, w ≠ [] ∧ c.Passes w next

theorem Cursor.Before.of_passes (h : a.Before b) (h' : b.Passes w c) : a.Before c := by
  obtain ⟨v, hv, hpasses⟩ := h
  exact ⟨v ++ w, by simp [hv], hpasses.trans h'⟩

theorem Cursor.Passes.before (h : a.Passes w b) (h' : b.Before c) : a.Before c := by
  obtain ⟨v, hv, hpasses⟩ := h'
  exact ⟨w ++ v, by simp [hv], h.trans hpasses⟩

theorem Cursor.Passes.length_le (h : c.Passes w next) : next.rest.length ≤ c.rest.length := by
  rw [h.1, List.length_append]
  omega

/-- Less text is left at the later place. -/
theorem Cursor.Before.length_lt (h : c.Before next) : next.rest.length < c.rest.length := by
  obtain ⟨w, hw, hpasses⟩ := h
  have hpos : 0 < w.length := List.length_pos_iff.mpr hw
  rw [hpasses.1, List.length_append]
  omega

theorem Cursor.Before.offset_lt (h : c.Before next) : c.offset < next.offset := by
  obtain ⟨w, hw, hpasses⟩ := h
  have hpos : 0 < w.length := List.length_pos_iff.mpr hw
  rw [hpasses.2]
  omega

theorem Cursor.Passes.before_or_eq (h : c.Passes w next) : c.Before next ∨ next = c := by
  by_cases hw : w = []
  · subst hw
    exact Or.inr (h.unique (Cursor.Passes.refl c))
  · exact Or.inl ⟨w, hw, h⟩

end Scan

namespace Scanner

open Scan

variable {τ α : Type} {item item' : Scanner τ α} {separator : Scanner τ Unit}

/-- One more item of a repetition: a separator is read, and the item behind it. -/
def Round (item : Scanner τ α) (separator : Scanner τ Unit) (c : Cursor τ) (a : α)
    (next : Cursor τ) : Prop :=
  ∃ between, read? separator c = some ((), between) ∧ read? item between = some (a, next)

/-- Some rounds lead from one place to the other. -/
def Reaches (item : Scanner τ α) (separator : Scanner τ Unit) : Cursor τ → Cursor τ → Prop :=
  Relation.ReflTransGen fun c next => ∃ a, Round item separator c a next

theorem Round.passes (hseparator : Advances separator) (hitem : Advances item) {c next : Cursor τ}
    {a : α} (h : Round item separator c a next) : ∃ w, c.Passes w next := by
  obtain ⟨between, hbetween, hnext⟩ := h
  obtain ⟨v, hv⟩ := hseparator c () between hbetween
  obtain ⟨w, hw⟩ := hitem between a next hnext
  exact ⟨v ++ w, hv.trans hw⟩

theorem Reaches.passes (hseparator : Advances separator) (hitem : Advances item)
    {c next : Cursor τ} (h : Reaches item separator c next) : ∃ w, c.Passes w next := by
  induction h with
  | refl => exact ⟨[], Cursor.Passes.refl c⟩
  | tail _ hround ih =>
    obtain ⟨v, hv⟩ := ih
    obtain ⟨a, ha⟩ := hround
    obtain ⟨w, hw⟩ := ha.passes hseparator hitem
    exact ⟨v ++ w, hv.trans hw⟩

theorem read?_eq_some {p : Scanner τ α} {c next : Cursor τ} {a : α} :
    read? p c = some (a, next) ↔ ∃ alt, p c = .success a next alt := by
  unfold read?
  cases p c with
  | failure f => simp [Outcome.result?]
  | success b last alt =>
    simp only [Outcome.result?, Option.some.injEq, Prod.mk.injEq, Outcome.success.injEq]
    constructor
    · intro h
      exact ⟨alt, h.1, h.2, rfl⟩
    · intro h
      obtain ⟨_, hb, hlast, _⟩ := h
      exact ⟨hb, hlast⟩

/-- What a repetition reads depends on its items only where a round can begin. -/
theorem separatedTail_congr (fuel : Nat) (found : List α) (alt : Option (Failure τ)) (c : Cursor τ)
    (h : ∀ d between, Reaches item separator c d → read? separator d = some ((), between) →
      item between = item' between) :
    separatedTail item separator fuel found alt c =
      separatedTail item' separator fuel found alt c := by
  induction fuel generalizing found alt c with
  | zero => rfl
  | succ fuel ih =>
    unfold separatedTail
    cases hs : separator c with
    | failure f => rfl
    | success u between later =>
      have hbetween : read? separator c = some ((), between) := read?_eq_some.mpr ⟨later, hs⟩
      have hitem : item between = item' between := h c between .refl hbetween
      dsimp only
      rw [← hitem]
      cases hi : item between with
      | failure f => rfl
      | success a next more =>
        have hround : Round item separator c a next :=
          ⟨between, hbetween, read?_eq_some.mpr ⟨more, hi⟩⟩
        have hlater := ih (a :: found) (merge (merge alt later) more) next
          fun d between' hd => h d between' (.head ⟨a, hround⟩ hd)
        simp only [hlater]

theorem separated_congr (nonempty trailing : Bool) (c : Cursor τ) (hfirst : item c = item' c)
    (h : ∀ a next, read? item c = some (a, next) → ∀ d between, Reaches item separator next d →
      read? separator d = some ((), between) → item between = item' between) :
    separated item separator nonempty trailing c =
      separated item' separator nonempty trailing c := by
  unfold separated
  rw [← hfirst]
  cases hi : item c with
  | failure f => rfl
  | success a next alt =>
    have hread : read? item c = some (a, next) := read?_eq_some.mpr ⟨alt, hi⟩
    simp only [separatedTail_congr _ [a] alt next (h a next hread)]

/-- The later items of a repetition that goes on for as long as a round can be read: nothing bounds
the number of rounds, and it makes no difference whether they read any text. -/
inductive Loop (item : Scanner τ α) (separator : Scanner τ Unit) :
    Cursor τ → List α → Cursor τ → Prop
  | stop {c : Cursor τ} : (∀ a next, ¬ Round item separator c a next) →
      Loop item separator c [] c
  | round {c next last : Cursor τ} {a : α} {as : List α} : Round item separator c a next →
      Loop item separator next as last → Loop item separator c (a :: as) last

theorem Round.unique {c next other : Cursor τ} {a b : α} (h : Round item separator c a next)
    (h' : Round item separator c b other) : a = b ∧ next = other := by
  obtain ⟨between, hs, hi⟩ := h
  obtain ⟨between', hs', hi'⟩ := h'
  cases hs.symm.trans hs'
  cases hi.symm.trans hi'
  exact ⟨rfl, rfl⟩

theorem laterItems?_stop {c : Cursor τ} (h : ∀ a next, ¬ Round item separator c a next)
    (fuel : Nat) : laterItems? item separator fuel c = ([], c) := by
  cases fuel with
  | zero => rfl
  | succ fuel =>
    unfold laterItems?
    cases hs : read? separator c with
    | none => rfl
    | some x =>
      obtain ⟨u, between⟩ := x
      cases hi : read? item between with
      | none => simp only [hi]
      | some y => exact absurd ⟨between, hs, hi⟩ (h y.1 y.2)

theorem laterItems?_round {c next : Cursor τ} {a : α} (h : Round item separator c a next)
    (hlt : c.offset < next.offset) (fuel : Nat) :
    laterItems? item separator (fuel + 1) c =
      (a :: (laterItems? item separator fuel next).1, (laterItems? item separator fuel next).2) := by
  obtain ⟨between, hs, hi⟩ := h
  rw [laterItems?, hs]
  simp only [hi]
  rw [if_pos hlt]

/-- Where every round reads some text, there are no more rounds than characters, and the bounded
repetition reads what the unbounded one does. -/
theorem loop_laterItems? (h : ∀ c a next, Round item separator c a next → c.Before next)
    (fuel : Nat) (c : Cursor τ) (hfuel : c.rest.length < fuel) :
    Loop item separator c (laterItems? item separator fuel c).1
        (laterItems? item separator fuel c).2 ∧
      (laterItems? item separator fuel c).1.length ≤ c.rest.length := by
  induction fuel generalizing c with
  | zero => omega
  | succ fuel ih =>
    by_cases hround : ∃ a next, Round item separator c a next
    · obtain ⟨a, next, hround⟩ := hround
      have hbefore := h c a next hround
      have hlt := hbefore.length_lt
      obtain ⟨hloop, hlength⟩ := ih next (by omega)
      rw [laterItems?_round hround hbefore.offset_lt]
      refine ⟨.round hround hloop, ?_⟩
      rw [List.length_cons]
      omega
    · have hstop : ∀ a next, ¬ Round item separator c a next :=
        fun a next hnext => hround ⟨a, next, hnext⟩
      rw [laterItems?_stop hstop]
      exact ⟨.stop hstop, Nat.zero_le _⟩

theorem Loop.unique {c last last' : Cursor τ} {as bs : List α} (h : Loop item separator c as last)
    (h' : Loop item separator c bs last') : as = bs ∧ last = last' := by
  induction h generalizing bs with
  | stop hnone =>
    cases h' with
    | stop _ => exact ⟨rfl, rfl⟩
    | round hround _ => exact absurd hround (hnone _ _)
  | round hround _ ih =>
    cases h' with
    | stop hnone => exact absurd hround (hnone _ _)
    | round hround' hlater =>
      obtain ⟨rfl, rfl⟩ := hround.unique hround'
      obtain ⟨rfl, rfl⟩ := ih hlater
      exact ⟨rfl, rfl⟩

/-- A repetition that makes progress: every round reads some text, so it ends after no more rounds
than there are characters, and the items are those that are read within that bound. -/
structure Progresses (item : Scanner τ α) (separator : Scanner τ Unit) : Prop where
  round : ∀ c a next, Round item separator c a next → c.Before next
  loop : ∀ c, ∃ as last, Loop item separator c as last ∧ as.length ≤ c.rest.length
  reads : ∀ nonempty c first next as last, read? item c = some (first, next) →
    Loop item separator next as last →
      read? (separated item separator nonempty false) c = some (first :: as, last)

theorem progresses_of_round (h : ∀ c a next, Round item separator c a next → c.Before next) :
    Progresses item separator := by
  refine ⟨h, ?_, ?_⟩
  · intro c
    exact ⟨_, _, loop_laterItems? h _ c (Nat.lt_succ_self _)⟩
  · intro nonempty c first next as last hfirst hloop
    obtain ⟨hbounded, -⟩ := loop_laterItems? h _ next (Nat.lt_succ_self _)
    obtain ⟨rfl, rfl⟩ := hloop.unique hbounded
    rw [read?_separated, hfirst]

/-- A separator that is not empty makes the progress, whatever the items are. -/
theorem progresses_exactly [DecidableEq τ] {text : List τ} (htext : text ≠ [])
    (hitem : Advances item) : Progresses item (exactly text) := by
  refine progresses_of_round ?_
  intro c a next hround
  obtain ⟨between, hbetween, hnext⟩ := hround
  obtain ⟨w, hw⟩ := hitem between a next hnext
  have hbefore : c.Before between := ⟨text, htext, read?_exactly_some hbetween⟩
  exact hbefore.of_passes hw

end Scanner

end ClauseTemplates
